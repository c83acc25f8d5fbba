import Mathlib

/-!
# Nanoapps

What the event loop and the request managers of CHRE know of a nanoapp: its instance ID,
the events it is registered for and the queue of the events it is still to receive
(`chre/core/nanoapp.cc`, `chre/core/event_ref_queue.cc`).  The list of nanoapps is searched
by instance ID.
-/

namespace Chre

/-- The instance ID of the system. -/
def kSystemInstanceId : Nat := 0

/-- The target of an event for all nanoapps that are registered for it, `UINT32_MAX`. -/
def kBroadcastInstanceId : Nat := 2 ^ 32 - 1

/-- A nanoapp.  `eventQueue` holds the events in its queue by the places of their posts. -/
structure Nanoapp where
  instanceId : Nat
  isSystemNanoapp : Bool := false
  registeredEvents : List Nat := []
  eventQueue : List Nat := []
  deriving DecidableEq, Repr

namespace Nanoapp

def isRegisteredForBroadcastEvent (app : Nanoapp) (eventType : Nat) : Bool :=
  app.registeredEvents.contains eventType

/-- Registers for an event, with enough memory. -/
def registerForBroadcastEvent (app : Nanoapp) (eventId : Nat) : Bool × Nanoapp :=
  if app.isRegisteredForBroadcastEvent eventId then (false, app)
  else (true, { app with registeredEvents := app.registeredEvents ++ [eventId] })

def unregisterForBroadcastEvent (app : Nanoapp) (eventId : Nat) : Bool × Nanoapp :=
  if app.isRegisteredForBroadcastEvent eventId then
    (true, { app with registeredEvents := app.registeredEvents.erase eventId })
  else (false, app)

@[simp] lemma registerForBroadcastEvent_instanceId (app : Nanoapp) (eventId : Nat) :
    (app.registerForBroadcastEvent eventId).2.instanceId = app.instanceId := by
  unfold registerForBroadcastEvent
  split <;> rfl

@[simp] lemma unregisterForBroadcastEvent_instanceId (app : Nanoapp) (eventId : Nat) :
    (app.unregisterForBroadcastEvent eventId).2.instanceId = app.instanceId := by
  unfold unregisterForBroadcastEvent
  split <;> rfl

@[simp] lemma registerForBroadcastEvent_eventQueue (app : Nanoapp) (eventId : Nat) :
    (app.registerForBroadcastEvent eventId).2.eventQueue = app.eventQueue := by
  unfold registerForBroadcastEvent
  split <;> rfl

@[simp] lemma unregisterForBroadcastEvent_eventQueue (app : Nanoapp) (eventId : Nat) :
    (app.unregisterForBroadcastEvent eventId).2.eventQueue = app.eventQueue := by
  unfold unregisterForBroadcastEvent
  split <;> rfl

end Nanoapp

def lookupAppByInstanceId (apps : List Nanoapp) (instanceId : Nat) : Option Nanoapp :=
  if instanceId = kSystemInstanceId then none
  else apps.find? fun app => app.instanceId == instanceId

/-- The nanoapp with this instance ID changes. -/
def updateApp (apps : List Nanoapp) (instanceId : Nat) (f : Nanoapp → Nanoapp) : List Nanoapp :=
  apps.map fun app => if app.instanceId = instanceId then f app else app

lemma lookup_mem {apps : List Nanoapp} {instanceId : Nat} {app : Nanoapp}
    (h : lookupAppByInstanceId apps instanceId = some app) :
    app ∈ apps ∧ app.instanceId = instanceId := by
  unfold lookupAppByInstanceId at h
  split at h
  · cases h
  · have hid := List.find?_some h
    exact ⟨List.mem_of_find?_eq_some h, beq_iff_eq.mp hid⟩

/-- Who is loaded does not change with a nanoapp's other data. -/
lemma lookup_updateApp {f : Nanoapp → Nanoapp} (hf : ∀ app, (f app).instanceId = app.instanceId)
    (apps : List Nanoapp) (i j : Nat) :
    (lookupAppByInstanceId (updateApp apps i f) j).isSome =
      (lookupAppByInstanceId apps j).isSome := by
  unfold lookupAppByInstanceId updateApp
  split
  · rfl
  · have hid : ∀ app : Nanoapp,
        (if app.instanceId = i then f app else app).instanceId = app.instanceId := by
      intro app
      split
      · exact hf app
      · rfl
    rw [List.find?_map, Option.isSome_map]
    congr 2
    funext app
    exact congrArg (· == j) (hid app)

end Chre
