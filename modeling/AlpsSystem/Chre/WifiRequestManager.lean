import AlpsSystem.Chre.Nanoapp
import AlpsSystem.Lib.Runs

/-!
# The Wi-Fi request manager

The manager of `chre/core/wifi_request_manager.cc` in the event loop: nanoapps ask it to
enable or disable the scan monitor of the platform and to make scans, and the platform
answers later.  Memory can be allocated and events can be posted throughout.

* `handleScanResponseSync`, `handleFreeWifiScanEvent` — the answers to a scan.
* `State.step`, `run` — every order of these.
-/

namespace Chre.Wifi

/-- `CHRE_ERROR_NONE` and `CHRE_ERROR`. -/
def errorNone : Nat := 0

def errorGeneric : Nat := 1

/-- `CHRE_EVENT_WIFI_SCAN_RESULT`. -/
def eventWifiScanResult : Nat := 0x0311

/-- `CHRE_WIFI_SCAN_RESULT_TIMEOUT_NS`. -/
def scanResultTimeoutNs : Nat := 30 * 1000000000

def kMaxScanMonitorStateTransitions : Nat := 8

/-- `enum chreWifiRequestType`. -/
inductive RequestType where
  | configureScanMonitor
  | requestScan
  deriving DecidableEq, Repr

/-- `ScanMonitorStateTransition`. -/
structure Transition where
  nanoappInstanceId : Nat
  cookie : Nat
  enable : Bool
  deriving DecidableEq, Repr

/-- A `chreAsyncResult` event and the nanoapp it is posted to. -/
structure AsyncResult where
  target : Nat
  requestType : RequestType
  success : Bool
  errorCode : Nat
  cookie : Nat
  deriving DecidableEq, Repr

/-- What the manager reads of a `chreWifiScanEvent`. -/
structure ScanEvent where
  resultCount : Nat
  resultTotal : Nat
  deriving DecidableEq, Repr

/-- The manager, the nanoapps and the platform. -/
structure State where
  nanoapps : List Nanoapp
  /-- `mScanMonitorStateTransitions`. -/
  transitions : List Transition := []
  /-- `mScanMonitorNanoapps`. -/
  scanMonitorNanoapps : List Nat := []
  scanRequestingNanoappInstanceId : Option Nat := none
  scanRequestingNanoappCookie : Nat := 0
  scanRequestResultsArePending : Bool := false
  scanEventResultCountAccumulator : Nat := 0
  lastScanRequestTime : Nat := 0
  /-- While `handleScanMonitorStateChangeSync` is in its loop: `success` and `errorCode`. -/
  handling : Option (Bool × Nat) := none
  /-- `FATAL_ERROR` was reached. -/
  fatal : Bool := false
  /-- The result events, in the order of posting. -/
  posted : List AsyncResult := []
  /-- The scan events that were posted and are not freed. -/
  scanEvents : List ScanEvent := []
  /-- The scan monitor of the platform is active. -/
  monitor : Bool := false
  /-- The platform has accepted a change of the monitor and has not answered. -/
  outstanding : Bool := false
  /-- Callers and cookies of the calls of `configureScanMonitor` that returned `true`. -/
  accepted : List (Nat × Nat) := []
  deriving DecidableEq, Repr

namespace State

def findNanoappByInstanceId (s : State) (instanceId : Nat) : Option Nanoapp :=
  lookupAppByInstanceId s.nanoapps instanceId

def scanMonitorIsEnabled (s : State) : Bool := !s.scanMonitorNanoapps.isEmpty

def nanoappHasScanMonitorRequest (s : State) (instanceId : Nat) : Bool :=
  s.scanMonitorNanoapps.contains instanceId

def scanMonitorIsInRequestedState (s : State) (requestedState nanoappHasRequest : Bool) : Bool :=
  requestedState == s.scanMonitorIsEnabled ||
    (!requestedState && (!nanoappHasRequest || decide (s.scanMonitorNanoapps.length > 1)))

def scanMonitorStateTransitionIsRequired (s : State) (requestedState nanoappHasRequest : Bool) :
    Bool :=
  (requestedState && s.scanMonitorNanoapps.isEmpty) ||
    (!requestedState && nanoappHasRequest && s.scanMonitorNanoapps.length == 1)

/-- `addScanMonitorRequestToQueue`, `none` if the queue is full. -/
def addScanMonitorRequestToQueue (s : State) (instanceId : Nat) (enable : Bool) (cookie : Nat) :
    Option State :=
  if s.transitions.length < kMaxScanMonitorStateTransitions then
    some { s with transitions := s.transitions ++
      [{ nanoappInstanceId := instanceId, cookie := cookie, enable := enable }] }
  else none

def updateNanoappScanMonitoringList (s : State) (enable : Bool) (instanceId : Nat) :
    Bool × State :=
  match s.findNanoappByInstanceId instanceId with
  | none => (true, s)
  | some nanoapp =>
    if enable then
      if s.nanoappHasScanMonitorRequest instanceId then (true, s)
      else
        match nanoapp.registerForBroadcastEvent eventWifiScanResult with
        | (false, _) => (false, s)
        | (true, _) => (true, { s with
            nanoapps := updateApp s.nanoapps instanceId fun app =>
              (app.registerForBroadcastEvent eventWifiScanResult).2
            scanMonitorNanoapps := s.scanMonitorNanoapps ++ [instanceId] })
    else if s.nanoappHasScanMonitorRequest instanceId then
      (true, { s with
        nanoapps := updateApp s.nanoapps instanceId fun app =>
          (app.unregisterForBroadcastEvent eventWifiScanResult).2
        scanMonitorNanoapps := s.scanMonitorNanoapps.erase instanceId })
    else (false, s)

def post (s : State) (result : AsyncResult) : State := { s with posted := s.posted ++ [result] }

def postScanMonitorAsyncResultEvent (s : State) (nanoappInstanceId : Nat)
    (success enable : Bool) (errorCode cookie : Nat) : Bool × State :=
  let result : AsyncResult :=
    { target := nanoappInstanceId, requestType := .configureScanMonitor, success := success
      errorCode := errorCode, cookie := cookie }
  if success then
    match s.updateNanoappScanMonitoringList enable nanoappInstanceId with
    | (false, s) => (false, s)
    | (true, s) => (true, s.post result)
  else (true, s.post result)

/-- `none` is `FATAL_ERROR`. -/
def postScanMonitorAsyncResultEventFatal (s : State) (nanoappInstanceId : Nat)
    (success enable : Bool) (errorCode cookie : Nat) : Option State :=
  match s.postScanMonitorAsyncResultEvent nanoappInstanceId success enable errorCode cookie with
  | (false, _) => none
  | (true, s) => some s

/-- `configureScanMonitor`; `accepts` is the answer of `mPlatformWifi.configureScanMonitor`,
if it is called. -/
def configureScanMonitor (s : State) (instanceId : Nat) (enable : Bool) (cookie : Nat)
    (accepts : Bool) : Bool × State :=
  let hasScanMonitorRequest := s.nanoappHasScanMonitorRequest instanceId
  if !s.transitions.isEmpty then
    match s.addScanMonitorRequestToQueue instanceId enable cookie with
    | some s => (true, s)
    | none => (false, s)
  else if s.scanMonitorIsInRequestedState enable hasScanMonitorRequest then
    s.postScanMonitorAsyncResultEvent instanceId true enable errorNone cookie
  else if s.scanMonitorStateTransitionIsRequired enable hasScanMonitorRequest then
    match s.addScanMonitorRequestToQueue instanceId enable cookie with
    | some s =>
      if accepts then (true, { s with outstanding := true })
      else (false, { s with transitions := s.transitions.dropLast })
    | none => (false, s)
  else (false, s)

/-- `requestScan` at the time `now`; `accepts` is the answer of `mPlatformWifi.requestScan`. -/
def requestScan (s : State) (instanceId cookie now : Nat) (accepts : Bool) : Bool × State :=
  let timedOut := s.scanRequestingNanoappInstanceId.isSome &&
    decide (s.lastScanRequestTime + scanResultTimeoutNs < now)
  let s := if timedOut then { s with scanRequestingNanoappInstanceId := none } else s
  if s.scanRequestingNanoappInstanceId.isSome then (false, s)
  else if accepts then
    (true, { s with
      scanRequestingNanoappInstanceId := some instanceId
      scanRequestingNanoappCookie := cookie
      lastScanRequestTime := now })
  else (false, s)

/-- The first part of `handleScanMonitorStateChangeSync`: the request that the platform has
answered.  `none` is `FATAL_ERROR`. -/
def handleScanMonitorStateChangeSync (s : State) (enabled : Bool) (errorCode : Nat) :
    Option State :=
  let success := errorCode == errorNone
  match s.transitions with
  | [] => some s
  | stateTransition :: rest =>
    let success := success && stateTransition.enable == enabled
    (s.postScanMonitorAsyncResultEventFatal stateTransition.nanoappInstanceId success
      stateTransition.enable errorCode stateTransition.cookie).map fun s =>
        { s with transitions := rest, handling := some (success, errorCode) }

/-- One round of the loop of `handleScanMonitorStateChangeSync`; `accepts` is the answer of
`mPlatformWifi.configureScanMonitor`, if it is called.  `none` is `FATAL_ERROR`. -/
def serveNext (s : State) (success : Bool) (errorCode : Nat) (accepts : Bool) : Option State :=
  match s.transitions with
  | [] => some { s with handling := none }
  | stateTransition :: rest =>
    let hasScanMonitorRequest := s.nanoappHasScanMonitorRequest stateTransition.nanoappInstanceId
    if s.scanMonitorIsInRequestedState stateTransition.enable hasScanMonitorRequest then
      (s.postScanMonitorAsyncResultEventFatal stateTransition.nanoappInstanceId success
        stateTransition.enable errorCode stateTransition.cookie).map fun s =>
          { s with transitions := rest }
    else if s.scanMonitorStateTransitionIsRequired stateTransition.enable
        hasScanMonitorRequest then
      if accepts then some { s with handling := none, outstanding := true }
      else
        (s.postScanMonitorAsyncResultEventFatal stateTransition.nanoappInstanceId false
          stateTransition.enable errorGeneric stateTransition.cookie).map fun s =>
            { s with transitions := rest }
    else some { s with handling := none }

def handleScanResponseSync (s : State) (pending : Bool) (errorCode : Nat) : State :=
  let errorCode := if !pending && errorCode == errorNone then errorGeneric else errorCode
  match s.scanRequestingNanoappInstanceId with
  | none => s
  | some instanceId =>
    let s := { s.post
        { target := instanceId, requestType := .requestScan
          success := pending && errorCode == errorNone
          errorCode := errorCode, cookie := s.scanRequestingNanoappCookie } with
      scanRequestResultsArePending := pending }
    if pending then
      { s with nanoapps := updateApp s.nanoapps instanceId fun app =>
          (app.registerForBroadcastEvent eventWifiScanResult).2 }
    else { s with scanRequestingNanoappInstanceId := none }

/-- `handleScanEventSync` posts the scan event. -/
def handleScanEventSync (s : State) (event : ScanEvent) : State :=
  { s with scanEvents := s.scanEvents ++ [event] }

/-- `handleFreeWifiScanEvent`; the accumulator has 8 bits. -/
def handleFreeWifiScanEvent (s : State) (scanEvent : ScanEvent) : State :=
  if s.scanRequestResultsArePending then
    let accumulator := (s.scanEventResultCountAccumulator + scanEvent.resultCount) % 2 ^ 8
    if accumulator ≥ scanEvent.resultTotal then
      let s := { s with
        scanEventResultCountAccumulator := 0, scanRequestResultsArePending := false }
      match s.scanRequestingNanoappInstanceId with
      | none => s
      | some instanceId =>
        let s :=
          if s.nanoappHasScanMonitorRequest instanceId then s
          else { s with nanoapps := updateApp s.nanoapps instanceId fun app =>
            (app.unregisterForBroadcastEvent eventWifiScanResult).2 }
        { s with scanRequestingNanoappInstanceId := none }
    else { s with scanEventResultCountAccumulator := accumulator }
  else s

end State

/-- What happens in the event loop.  A nanoapp that is not loaded makes no calls, the platform
answers a change of the monitor only after it has accepted one, and nothing else happens while
`handleScanMonitorStateChangeSync` is in its loop. -/
inductive Event where
  | configureScanMonitor (instanceId : Nat) (enable : Bool) (cookie : Nat) (accepts : Bool)
  | requestScan (instanceId cookie now : Nat) (accepts : Bool)
  | scanMonitorStateChange (enabled : Bool) (errorCode : Nat)
  | serveNext (accepts : Bool)
  | scanResponse (pending : Bool) (errorCode : Nat)
  | scanEvent (event : ScanEvent)
  | freeScanEvent
  deriving DecidableEq, Repr

namespace State

/-- The state after a handler, `none` being `FATAL_ERROR`. -/
def orFatal (s : State) (result : Option State) : State :=
  result.getD { s with fatal := true }

/-- A call of `configureScanMonitor`, with its result noted. -/
def configure (s : State) (instanceId : Nat) (enable : Bool) (cookie : Nat) (accepts : Bool) :
    State :=
  match s.configureScanMonitor instanceId enable cookie accepts with
  | (true, s) => { s with accepted := s.accepted ++ [(instanceId, cookie)] }
  | (false, s) => s

/-- A step in the loop of `handleScanMonitorStateChangeSync`. -/
def stepInLoop (s : State) (success : Bool) (errorCode : Nat) : Event → State
  | .serveNext accepts => s.orFatal (s.serveNext success errorCode accepts)
  | _ => s

/-- A step outside of it. -/
def stepOutside (s : State) : Event → State
  | .configureScanMonitor instanceId enable cookie accepts =>
    if (s.findNanoappByInstanceId instanceId).isSome then
      s.configure instanceId enable cookie accepts
    else s
  | .requestScan instanceId cookie now accepts =>
    if (s.findNanoappByInstanceId instanceId).isSome then
      (s.requestScan instanceId cookie now accepts).2
    else s
  | .scanMonitorStateChange enabled errorCode =>
    if s.outstanding then
      let s := { s with monitor := enabled, outstanding := false }
      s.orFatal (s.handleScanMonitorStateChangeSync enabled errorCode)
    else s
  | .serveNext _ => s
  | .scanResponse pending errorCode => s.handleScanResponseSync pending errorCode
  | .scanEvent event => s.handleScanEventSync event
  | .freeScanEvent =>
    match s.scanEvents with
    | [] => s
    | event :: rest => { s with scanEvents := rest }.handleFreeWifiScanEvent event

def step (s : State) (event : Event) : State :=
  if s.fatal then s
  else
    match s.handling with
    | some (success, errorCode) => s.stepInLoop success errorCode event
    | none => s.stepOutside event

end State

/-- A run with these nanoapps loaded. -/
def run (nanoapps : List Nanoapp) (events : List Event) : State :=
  events.foldl State.step { nanoapps := nanoapps }

end Chre.Wifi
