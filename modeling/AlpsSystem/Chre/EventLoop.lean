import AlpsSystem.Chre.Nanoapp
import AlpsSystem.Lib.Runs

/-!
# The event loop

The event loop of `chre/core/event_loop.cc`: threads post events to an inbound queue, and
the thread of the loop takes them out, hands them to the queues of the nanoapps they are
for, delivers them from there one by one and frees them.  A callback may unload a nanoapp
in the middle of this, which flushes all of the queues first.

A step of the thread of the loop takes one event from a queue, or goes on to the next
nanoapp; what it has to come back to is a stack of frames.

* `postEvent`, `distributeEvent`, `deliverNextEvent`, `freeEvent` — what happens to an
  event.
* `State.step`, `run` — every interleaving with posts, registrations and `stop`.
-/

namespace Chre.EventLoop

/-- The sizes of the event pool, of the inbound queue and of the queue of a nanoapp. -/
def kMaxEventCount : Nat := 96

def kMaxUnscheduledEventCount : Nat := 96

def kMaxPendingEvents : Nat := 16

/-- `CHRE_EVENT_NANOAPP_STOPPED`. -/
def eventNanoappStopped : Nat := 0x0004

/-- A callback that frees the data of an event, or the deferred callback that unloads a
nanoapp. -/
inductive FreeCallback where
  | data
  | unload (instanceId : Nat) (allowSystemNanoappUnload : Bool)
  deriving DecidableEq, Repr

structure Event where
  eventType : Nat
  freeCallback : Option FreeCallback
  senderInstanceId : Nat
  targetInstanceId : Nat
  deriving DecidableEq, Repr

/-- Where `deliverEvents` was called: in the loop of `run`, after it, or in `unloadNanoapp`
of the nanoapp at an index. -/
inductive Caller where
  | run
  | exit
  | unload (index : Nat)
  deriving DecidableEq, Repr

/-- Where the thread of the loop is in a function. -/
inductive Frame where
  /-- In `run`, at the head of the loop. -/
  | run (havePendingEvents : Bool)
  /-- In `run`, at `mEvents.pop()`. -/
  | pop
  /-- In `deliverEvents`, at the nanoapp with this index. -/
  | deliver (caller : Caller) (index : Nat) (havePendingEvents : Bool)
  /-- In `run`, purging the inbound queue after the loop. -/
  | purge
  /-- In `run`, unloading all nanoapps at the end. -/
  | unloadAll
  /-- In `unloadNanoapp`, at `flushInboundEventQueue`. -/
  | flush (index : Nat)
  deriving DecidableEq, Repr

/-- What happens to an event, by its place among the posted ones. -/
inductive Action where
  | delivered (instanceId event : Nat)
  | freed (event : Nat)
  deriving DecidableEq, Repr

def Action.event : Action → Nat
  | .delivered _ event => event
  | .freed event => event

/-- The nanoapps and the events, with their queues.  An event is known by its place among
all events that were posted.  The last two fields are history. -/
structure Queues where
  nanoapps : List Nanoapp
  posted : List Event := []
  /-- `mEvents`. -/
  events : List Nat := []
  refCount : Nat → Nat := fun _ => 0
  /-- What happened to events so far. -/
  history : List Action := []
  /-- The events that were distributed, each with the nanoapps it was for at that time. -/
  distributed : List (Nat × List Nat) := []

/-- The event loop. -/
structure State extends Queues where
  poolUsed : Nat := 0
  running : Bool := true
  stack : List Frame := [.run false]
  /-- `mNanoapps` was accessed past its end. -/
  crashed : Bool := false
  /-- History: the events that were popped while the loop was running. -/
  poppedRunning : List Nat := []

/-! ## Events -/

/-- The condition of `distributeEvent`. -/
def isFor (event : Event) (app : Nanoapp) : Bool :=
  (event.targetInstanceId == kBroadcastInstanceId &&
      app.isRegisteredForBroadcastEvent event.eventType) ||
    event.targetInstanceId == app.instanceId

/-- `Nanoapp::postEvent`: nothing happens if the queue of the nanoapp is full. -/
def postToApp (app : Nanoapp) (id : Nat) : Nanoapp :=
  if app.eventQueue.length < kMaxPendingEvents then
    { app with eventQueue := app.eventQueue ++ [id] }
  else app

/-- The nanoapp takes the event, if it is for it. -/
def receive (event : Event) (id : Nat) (app : Nanoapp) : Nanoapp :=
  if isFor event app then postToApp app id else app

namespace Queues

def eventAt (q : Queues) (id : Nat) : Event :=
  q.posted.getD id
    { eventType := 0, freeCallback := none, senderInstanceId := 0, targetInstanceId := 0 }

/-- A new event in the inbound queue. -/
def enqueue (q : Queues) (event : Event) : Queues :=
  { q with posted := q.posted ++ [event], events := q.events ++ [q.posted.length] }

/-- The event goes to the queues of the nanoapps it is for. -/
def hand (q : Queues) (id : Nat) : Queues :=
  let event := q.eventAt id
  let recipients := q.nanoapps.filter (isFor event)
  let pushed := recipients.countP fun app => app.eventQueue.length < kMaxPendingEvents
  { q with
    nanoapps := q.nanoapps.map (receive event id)
    refCount := fun i => if i = id then q.refCount id + pushed else q.refCount i
    distributed := q.distributed ++ [(id, recipients.map Nanoapp.instanceId)] }

/-- The first event of the queue of the nanoapp at this index is delivered. -/
def processNextEvent (q : Queues) (index : Nat) (app : Nanoapp) (id : Nat) (rest : List Nat) :
    Queues :=
  { q with
    nanoapps := q.nanoapps.set index { app with eventQueue := rest }
    refCount := fun i => if i = id then q.refCount id - 1 else q.refCount i
    history := q.history ++ [.delivered app.instanceId id] }

def logFreed (q : Queues) (id : Nat) : Queues := { q with history := q.history ++ [.freed id] }

end Queues

namespace State

/-- An event is allocated and pushed to the inbound queue. -/
def push (s : State) (event : Event) : Bool × State :=
  if s.poolUsed < kMaxEventCount then
    if s.events.length < kMaxUnscheduledEventCount then
      (true, { s with toQueues := s.enqueue event, poolUsed := s.poolUsed + 1 })
    -- the event is not deallocated
    else (false, { s with poolUsed := s.poolUsed + 1 })
  else (false, s)

def postEvent (s : State) (event : Event) : Bool × State :=
  if s.running then s.push event else (false, s)

/-- `unloadNanoapp`, up to the flush of the inbound queue: `none` if nothing is unloaded. -/
def unloadNanoapp (s : State) (instanceId : Nat) (allowSystemNanoappUnload : Bool) : Option Nat :=
  (s.nanoapps.findIdx? fun app => app.instanceId == instanceId).filter fun i =>
    allowSystemNanoappUnload || !(s.nanoapps.getD i { instanceId := 0 }).isSystemNanoapp

def deallocate (s : State) : State := { s with poolUsed := s.poolUsed - 1 }

/-- `freeEvent`.  If the callback unloads a nanoapp, the event is deallocated when that is
done. -/
def freeEvent (s : State) (id : Nat) : State :=
  let s := { s with toQueues := s.logFreed id }
  match (s.eventAt id).freeCallback with
  | some (.unload instanceId allow) =>
    match s.unloadNanoapp instanceId allow with
    | some index => { s with stack := .flush index :: s.stack }
    | none => s.deallocate
  | _ => s.deallocate

def freeIfUnreferenced (s : State) (id : Nat) : State :=
  if s.refCount id = 0 then s.freeEvent id else s

def distributeEvent (s : State) (id : Nat) : State :=
  { s with toQueues := s.hand id }.freeIfUnreferenced id

/-- `mEvents.pop()`. -/
def popped (s : State) (id : Nat) (rest : List Nat) : State :=
  { s with
    events := rest
    poppedRunning := if s.running then s.poppedRunning ++ [id] else s.poppedRunning }

/-! ## The thread of the loop -/

/-- `notifyAppStatusChange` and `unloadNanoappAtIndex` at the end of `unloadNanoapp`, and the
end of the callback that has called it. -/
def finishUnload (s : State) (index : Nat) (rest : List Frame) : State :=
  let s := (s.postEvent
    { eventType := eventNanoappStopped, freeCallback := some .data
      senderInstanceId := kSystemInstanceId, targetInstanceId := kBroadcastInstanceId }).2
  { s with nanoapps := s.nanoapps.eraseIdx index, stack := rest }.deallocate

/-- `deliverEvents` returns. -/
def deliverReturns (s : State) (caller : Caller) (havePendingEvents : Bool) (rest : List Frame) :
    State :=
  match caller with
  | .run => { s with stack := .run havePendingEvents :: rest }
  | .exit =>
    if havePendingEvents then { s with stack := .deliver .exit 0 false :: rest }
    else { s with stack := .purge :: rest }
  | .unload index =>
    if havePendingEvents then { s with stack := .deliver (.unload index) 0 false :: rest }
    else s.finishUnload index rest

/-- `deliverEvents` at one nanoapp. -/
def deliverAt (s : State) (caller : Caller) (index : Nat) (havePendingEvents : Bool)
    (rest : List Frame) : State :=
  match s.nanoapps[index]? with
  | none => s.deliverReturns caller havePendingEvents rest
  | some app =>
    match app.eventQueue with
    | [] => { s with stack := .deliver caller (index + 1) havePendingEvents :: rest }
    | id :: queue =>
      { s with
        toQueues := s.processNextEvent index app id queue
        stack := .deliver caller (index + 1) (havePendingEvents || !queue.isEmpty) :: rest
        }.freeIfUnreferenced id

/-- One step of the thread of the loop. -/
def tick (s : State) : State :=
  match s.stack with
  | [] => s
  | .run havePendingEvents :: rest =>
    if s.running then
      if !havePendingEvents || !s.events.isEmpty then { s with stack := .pop :: rest }
      else { s with stack := .deliver .run 0 false :: rest }
    else { s with stack := .deliver .exit 0 false :: rest }
  | .pop :: rest =>
    match s.events with
    | [] => s
    | id :: events =>
      { s.popped id events with stack := .deliver .run 0 false :: rest }.distributeEvent id
  | .deliver caller index havePendingEvents :: rest =>
    s.deliverAt caller index havePendingEvents rest
  | .purge :: rest =>
    match s.events with
    | [] => { s with stack := .unloadAll :: rest }
    | id :: events => (s.popped id events).freeEvent id
  | .unloadAll :: rest =>
    match s.nanoapps with
    | [] => { s with stack := rest }
    | _ :: _ => { s with nanoapps := s.nanoapps.dropLast }
  | .flush index :: rest =>
    match s.events with
    | [] =>
      if index < s.nanoapps.length then { s with stack := .deliver (.unload index) 0 false :: rest }
      else { s with crashed := true }
    | id :: events => (s.popped id events).distributeEvent id

end State

/-- The steps of all threads. -/
inductive Step where
  /-- A thread posts an event; with `late`, it has read `mRunning` before that was cleared. -/
  | post (eventType : Nat) (freeCallback : Bool) (sender target : Nat) (late : Bool)
  /-- A thread defers the callback that unloads a nanoapp. -/
  | deferUnload (eventType instanceId : Nat) (allowSystemNanoappUnload late : Bool)
  | registerForBroadcastEvent (instanceId eventId : Nat)
  | unregisterForBroadcastEvent (instanceId eventId : Nat)
  /-- `stop` clears `mRunning`; it has posted an event before. -/
  | stop
  /-- The thread of the loop goes on. -/
  | tick
  deriving DecidableEq, Repr

namespace State

/-- `postEvent` from any thread. -/
def postFrom (s : State) (late : Bool) (event : Event) : State :=
  if late then (s.push event).2 else (s.postEvent event).2

def step (s : State) (step : Step) : State :=
  if s.crashed then s
  else
    match step with
    | .post eventType freeCallback sender target late =>
      s.postFrom late
        { eventType := eventType
          freeCallback := if freeCallback then some .data else none
          senderInstanceId := sender, targetInstanceId := target }
    | .deferUnload eventType instanceId allow late =>
      s.postFrom late
        { eventType := eventType
          freeCallback := some (.unload instanceId allow)
          senderInstanceId := kSystemInstanceId, targetInstanceId := kSystemInstanceId }
    | .registerForBroadcastEvent instanceId eventId =>
      { s with nanoapps := updateApp s.nanoapps instanceId fun app =>
          (app.registerForBroadcastEvent eventId).2 }
    | .unregisterForBroadcastEvent instanceId eventId =>
      { s with nanoapps := updateApp s.nanoapps instanceId fun app =>
          (app.unregisterForBroadcastEvent eventId).2 }
    | .stop => { s with running := false }
    | .tick => s.tick

end State

/-- A run with these nanoapps loaded. -/
def run (nanoapps : List Nanoapp) (steps : List Step) : State :=
  steps.foldl State.step { nanoapps := nanoapps }

end Chre.EventLoop
