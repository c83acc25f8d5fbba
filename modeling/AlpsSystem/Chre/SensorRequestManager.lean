import AlpsSystem.Chre.Nanoapp
import AlpsSystem.Chre.RequestMultiplexer
import AlpsSystem.Chre.SensorRequest
import AlpsSystem.Lib.Runs

/-!
# The sensor request manager

`chre/core/sensor_request_manager.cc`: the requests of all nanoapps for a sensor are merged
into one request to the platform, which may refuse it.

* `setSensorRequest` — the calls of nanoapps, over `SensorRequests.add`, `remove`, `update`.
* `agrees_iff` — when the platform has accepted the merge of the stored requests.
-/

namespace Chre

open Runs (EachStep Throughout throughout_iff_eachStep)

open List

instance : Request SensorRequest where
  defaultRequest := SensorRequest.defaultRequest
  mergeWith := SensorRequest.mergeWith
  isEquivalentTo := SensorRequest.isEquivalentTo

instance : LawfulRequest SensorRequest where
  refl _ := SensorRequest.isEquivalentTo_iff.mpr rfl
  symm h := SensorRequest.isEquivalentTo_iff.mpr (SensorRequest.isEquivalentTo_iff.mp h).symm
  trans h h' := SensorRequest.isEquivalentTo_iff.mpr
    ((SensorRequest.isEquivalentTo_iff.mp h).trans (SensorRequest.isEquivalentTo_iff.mp h'))
  merge_unchanged h := SensorRequest.isEquivalentTo_iff.mpr
    (congrArg SensorRequest.attributes (SensorRequest.mergeWith_unchanged h))
  merge_congr request h := SensorRequest.isEquivalentTo_iff.mpr
    (SensorRequest.mergeWith_attributes (SensorRequest.isEquivalentTo_iff.mp h) request)

open LawfulRequest RequestMultiplexer

namespace Sensors

/-- `Sensor`: what it is asked for at least, and the last request the platform has accepted. -/
structure Sensor where
  minInterval : Nat
  sensorRequest : SensorRequest := SensorRequest.defaultRequest

/-- `Sensor::setRequest`; `applied` is the result of `applyRequest`, if it is called. -/
def Sensor.setRequest (sensor : Sensor) (request : SensorRequest) (applied : Bool) :
    Bool × Sensor :=
  if request.isEquivalentTo sensor.sensorRequest then (true, sensor)
  else if applied then (true, { sensor with sensorRequest := request })
  else (false, sensor)

def isSensorRequestValid (sensorType : SensorType) (sensor : Sensor) (request : SensorRequest) :
    Bool :=
  if request.interval < sensor.minInterval then false
  else if sensorModeIsContinuous request.mode then !sensorTypeIsOneShot sensorType
  else if sensorModeIsOneShot request.mode then sensorTypeIsOneShot sensorType
  else true

/-- `SensorRequests` of a sensor that the platform has. -/
structure SensorRequests where
  sensor : Sensor
  multiplexer : RequestMultiplexer SensorRequest := {}

namespace SensorRequests

/-- `find`: the index of the nanoapp's request. -/
def find (r : SensorRequests) (instanceId : Nat) : Option Nat :=
  r.multiplexer.requests.findIdx? fun request => request.nanoapp == some instanceId

/-- `add`; `stored` says that there is memory for the request. -/
def add (r : SensorRequests) (request : SensorRequest) (stored applied : Bool) :
    Bool × SensorRequests :=
  match r.multiplexer.addRequest request stored with
  | none => (false, r)
  | some (_, false, m) => (true, { r with multiplexer := m })
  | some (addIndex, true, m) =>
    match r.sensor.setRequest m.currentMaximalRequest applied with
    | (true, sensor) => (true, { sensor := sensor, multiplexer := m })
    | (false, sensor) => (false, { sensor := sensor, multiplexer := (m.removeRequest addIndex).2 })

/-- `remove`, compiled without assertions. -/
def remove (r : SensorRequests) (removeIndex : Nat) (applied : Bool) : Bool × SensorRequests :=
  match r.multiplexer.removeRequest removeIndex with
  | (false, m) => (true, { r with multiplexer := m })
  | (true, m) =>
    match r.sensor.setRequest m.currentMaximalRequest applied with
    | (success, sensor) => (success, { sensor := sensor, multiplexer := m })

/-- `update` at the index of `previousRequest`. -/
def update (r : SensorRequests) (updateIndex : Nat) (request : SensorRequest) (applied : Bool) :
    Bool × SensorRequests :=
  let previousRequest := r.multiplexer.requests.getD updateIndex SensorRequest.defaultRequest
  match r.multiplexer.updateRequest updateIndex request with
  | (false, m) => (true, { r with multiplexer := m })
  | (true, m) =>
    match r.sensor.setRequest m.currentMaximalRequest applied with
    | (true, sensor) => (true, { sensor := sensor, multiplexer := m })
    | (false, sensor) =>
      (false, { sensor := sensor, multiplexer := (m.updateRequest updateIndex previousRequest).2 })

end SensorRequests

/-- A sample that is posted to a new client. -/
structure SamplePost where
  eventType : Nat
  eventData : Nat
  target : Nat
  deriving DecidableEq, Repr

/-- The manager and the nanoapps. -/
structure State where
  /-- `mSensorRequests`, by the type of the sensor. -/
  sensorRequests : SensorType → Option SensorRequests
  nanoapps : List Nanoapp
  posted : List SamplePost := []

/-- A call of `setSensorRequest` by a nanoapp, with what it meets: memory for the request, the
answer of the platform and the last event of the sensor. -/
structure Call where
  instanceId : Nat
  sensorHandle : Nat
  sensorRequest : SensorRequest
  stored : Bool := true
  applied : Bool := true
  lastEvent : Option Nat := none

namespace State

/-- The requests that a call is about: those of a sensor that the runtime is aware of, if the
request is valid. -/
def target (s : State) (call : Call) : Option (SensorType × SensorRequests) :=
  let sensorType := getSensorTypeFromSensorHandle call.sensorHandle
  if sensorType = .unknown then none
  else
    match s.sensorRequests sensorType with
    | none => none
    | some requests =>
      if isSensorRequestValid sensorType requests.sensor call.sensorRequest then
        some (sensorType, requests)
      else none

/-- The nanoapp becomes a client: it is registered, and gets the last event of an on-change
sensor. -/
def register (s : State) (sensorType : SensorType) (call : Call) : State :=
  let eventType := getSampleEventTypeForSensorType sensorType
  { s with
    nanoapps := updateApp s.nanoapps call.instanceId fun app =>
      (app.registerForBroadcastEvent eventType).2
    posted := match sensorTypeIsOnChange sensorType, call.lastEvent with
      | true, some eventData => s.posted ++ [⟨eventType, eventData, call.instanceId⟩]
      | _, _ => s.posted }

def unregister (s : State) (sensorType : SensorType) (call : Call) : State :=
  { s with nanoapps := updateApp s.nanoapps call.instanceId fun app =>
      (app.unregisterForBroadcastEvent (getSampleEventTypeForSensorType sensorType)).2 }

def store (s : State) (sensorType : SensorType) (requests : SensorRequests) : State :=
  { s with sensorRequests := fun t => if t = sensorType then some requests else s.sensorRequests t }

def setSensorRequest (s : State) (call : Call) : Bool × State :=
  match s.target call with
  | none => (false, s)
  | some (sensorType, requests) =>
    if call.sensorRequest.mode = .off then
      match requests.find call.instanceId with
      | some requestIndex =>
        match requests.remove requestIndex call.applied with
        | (true, requests) => (true, (s.store sensorType requests).unregister sensorType call)
        | (false, requests) => (false, s.store sensorType requests)
      | none => (true, s)
    else
      match requests.find call.instanceId with
      | none =>
        match requests.add call.sensorRequest call.stored call.applied with
        | (true, requests) => (true, (s.store sensorType requests).register sensorType call)
        | (false, requests) => (false, s.store sensorType requests)
      | some requestIndex =>
        match requests.update requestIndex call.sensorRequest call.applied with
        | (success, requests) => (success, s.store sensorType requests)

def step (s : State) (call : Call) : State := (s.setSensorRequest call).2

end State

/-! ## One sensor -/

open Request (isEquivalentTo)

namespace SensorRequests

variable {r r' : SensorRequests} {request : SensorRequest} {applied ok : Bool}
  {sensor sensor' : Sensor} {i : Nat}

/-- The platform has accepted the merge of the stored requests. -/
def Agrees (r : SensorRequests) : Prop :=
  isEquivalentTo r.sensor.sensorRequest (mergeAll r.multiplexer.requests) = true

/-- The invariant: the maximal request is the merge, and the platform has accepted it. -/
structure Sound (r : SensorRequests) : Prop where
  consistent : r.multiplexer.Consistent
  accepted : isEquivalentTo r.sensor.sensorRequest r.multiplexer.currentMaximalRequest = true

lemma Sound.agrees (h : r.Sound) : r.Agrees := LawfulRequest.trans h.accepted h.consistent

lemma setRequest_accepted (h : sensor.setRequest request applied = (true, sensor')) :
    isEquivalentTo sensor'.sensorRequest request := by
  unfold Sensor.setRequest at h
  split at h
  case isTrue hequiv =>
    cases h
    have hequiv' : isEquivalentTo request sensor.sensorRequest := hequiv
    exact symm hequiv'
  case isFalse =>
    split at h
    · cases h
      exact refl request
    · cases h

lemma setRequest_refused
    (h : sensor.setRequest request applied = (false, sensor')) : sensor' = sensor := by
  unfold Sensor.setRequest at h
  split at h
  · cases h
  · split at h
    · cases h
    · cases h
      rfl

/-- The platform is asked for a request that differs from the last one. -/
lemma setRequest_differs (h : ¬ isEquivalentTo request sensor.sensorRequest) (applied : Bool) :
    (sensor.setRequest request applied).1 = applied := by
  have h' : ¬ request.isEquivalentTo sensor.sensorRequest := h
  unfold Sensor.setRequest
  rw [if_neg h']
  cases applied <;> rfl

/-- The list is put back after the platform has refused. -/
lemma Sound.restore (h : r.Sound) (m : RequestMultiplexer SensorRequest) :
    Sound { r with multiplexer := (RequestMultiplexer.updateMaximalRequest
      { m with requests := r.multiplexer.requests }).2 } := by
  have hspec := updateMaximalRequest_spec m r.multiplexer.requests
  refine ⟨hspec.consistent, LawfulRequest.trans ?_ (LawfulRequest.symm hspec.consistent)⟩
  rw [hspec.stored]
  exact h.agrees

lemma add_sound (h : r.Sound) {stored : Bool} (hadd : r.add request stored applied = (ok, r')) :
    r'.Sound ∧ (ok = false → r'.multiplexer.requests = r.multiplexer.requests) := by
  unfold add at hadd
  split at hadd
  case h_1 =>
    cases hadd
    exact ⟨h, fun _ => rfl⟩
  case h_2 m hm =>
    cases hadd
    obtain ⟨-, hspec⟩ := addRequest_spec h.consistent hm
    exact ⟨⟨hspec.consistent, trans h.accepted (hspec.unchanged rfl)⟩, nofun⟩
  case h_3 addIndex m hm =>
    obtain ⟨rfl, hspec⟩ := addRequest_spec h.consistent hm
    split at hadd
    case h_1 sensor hset =>
      cases hadd
      exact ⟨⟨hspec.consistent, setRequest_accepted hset⟩, nofun⟩
    case h_2 sensor hset =>
      cases hadd
      have hsame := setRequest_refused hset
      subst hsame
      have hback : m.requests.eraseIdx r.multiplexer.requests.length = r.multiplexer.requests := by
        rw [hspec.stored, List.eraseIdx_append_of_length_le le_rfl, Nat.sub_self]
        exact append_nil _
      unfold removeRequest
      rw [hback]
      exact ⟨h.restore m, fun _ => (updateMaximalRequest_spec m _).stored⟩

lemma update_sound (h : r.Sound) {instanceId : Nat} (hi : r.find instanceId = some i)
    (hupdate : r.update i request applied = (ok, r')) :
    r'.Sound ∧ (ok = false → r'.multiplexer.requests = r.multiplexer.requests) := by
  have hspec := updateMaximalRequest_spec r.multiplexer (r.multiplexer.requests.set i request)
  unfold update updateRequest at hupdate
  split at hupdate
  case h_1 m hm =>
    rw [hm] at hspec
    cases hupdate
    exact ⟨⟨hspec.consistent, trans h.accepted (hspec.unchanged rfl)⟩, nofun⟩
  case h_2 m hm =>
    rw [hm] at hspec
    split at hupdate
    case h_1 sensor hset =>
      cases hupdate
      exact ⟨⟨hspec.consistent, setRequest_accepted hset⟩, nofun⟩
    case h_2 sensor hset =>
      cases hupdate
      have hsame := setRequest_refused hset
      subst hsame
      have hlt : i < r.multiplexer.requests.length :=
        (List.findIdx?_eq_some_iff_getElem.mp hi).1
      have hback : m.requests.set i (r.multiplexer.requests.getD i SensorRequest.defaultRequest) =
          r.multiplexer.requests := by
        rw [hspec.stored, set_set, getD_eq_getElem?_getD, List.getElem?_eq_getElem hlt]
        exact set_getElem_self hlt
      rw [hback]
      exact ⟨h.restore m, fun _ => (updateMaximalRequest_spec m _).stored⟩

/-- A removal succeeds and keeps the agreement, unless it changes the merge and the platform
refuses that. -/
lemma remove_sound (h : r.Sound) (hremove : r.remove i applied = (ok, r')) :
    ((applied || isEquivalentTo (mergeAll r.multiplexer.requests)
        (mergeAll (r.multiplexer.requests.eraseIdx i))) ∧ ok ∧ r'.Sound) ∨
      ((applied || isEquivalentTo (mergeAll r.multiplexer.requests)
        (mergeAll (r.multiplexer.requests.eraseIdx i))) = false ∧ ok = false ∧ ¬ r'.Agrees) := by
  have hspec := updateMaximalRequest_spec r.multiplexer (r.multiplexer.requests.eraseIdx i)
  have hchanged := updateMaximalRequest_changed h.consistent (r.multiplexer.requests.eraseIdx i)
  unfold remove removeRequest at hremove
  split at hremove
  case h_1 m hm =>
    rw [hm] at hspec hchanged
    cases hremove
    have hsame : isEquivalentTo (mergeAll r.multiplexer.requests)
        (mergeAll (r.multiplexer.requests.eraseIdx i)) := by
      simpa using hchanged.symm
    rw [hsame]
    exact .inl ⟨Bool.or_true _, rfl, hspec.consistent, trans h.accepted (hspec.unchanged rfl)⟩
  case h_2 m hm =>
    rw [hm] at hspec hchanged
    have hdiffer : isEquivalentTo (mergeAll r.multiplexer.requests)
        (mergeAll (r.multiplexer.requests.eraseIdx i)) = false := by
      simpa using hchanged.symm
    rw [hdiffer]
    have hnew : isEquivalentTo m.currentMaximalRequest
        (mergeAll (r.multiplexer.requests.eraseIdx i))
        := by
      have hconsistent : isEquivalentTo m.currentMaximalRequest (mergeAll m.requests) :=
        hspec.consistent
      rw [hspec.stored] at hconsistent
      exact hconsistent
    -- the platform's request is the merge of the old list
    have hasked : ¬ isEquivalentTo m.currentMaximalRequest r.sensor.sensorRequest := by
      intro hequiv
      have hold := LawfulRequest.symm (LawfulRequest.trans hequiv h.agrees)
      exact Bool.noConfusion (hdiffer.symm.trans (trans hold hnew))
    have happlied := setRequest_differs hasked applied
    rcases hset : r.sensor.setRequest m.currentMaximalRequest applied with ⟨success, sensor⟩
    rw [hset] at hremove happlied
    cases hremove
    obtain rfl : ok = applied := happlied
    cases ok with
    | true => exact .inl ⟨rfl, rfl, hspec.consistent, setRequest_accepted hset⟩
    | false =>
      have hsame := setRequest_refused hset
      subst hsame
      refine .inr ⟨rfl, rfl, fun hagrees => ?_⟩
      have hagrees' : isEquivalentTo r.sensor.sensorRequest (mergeAll m.requests) := hagrees
      rw [hspec.stored] at hagrees'
      exact Bool.noConfusion (hdiffer.symm.trans
        (trans (symm h.agrees) hagrees'))

end SensorRequests

/-! ## All sensors -/

namespace State

variable {s : State} {r : SensorRequests} {sensorType : SensorType}

/-- The platform has accepted the merge of the stored requests of every sensor. -/
def Agrees (s : State) : Prop :=
  ∀ sensorType r, s.sensorRequests sensorType = some r → r.Agrees

def Sound (s : State) : Prop :=
  ∀ sensorType r, s.sensorRequests sensorType = some r → r.Sound

/-- The stored requests for a type of sensor. -/
def storedRequests (s : State) (sensorType : SensorType) : List SensorRequest :=
  (s.sensorRequests sensorType).elim [] fun r => r.multiplexer.requests

/-- A call that returns `false` leaves the stored requests and the registrations as they are. -/
def failsCleanly (s : State) (call : Call) : Prop :=
  (s.setSensorRequest call).1 = false →
    (s.step call).storedRequests = s.storedRequests ∧ (s.step call).nanoapps = s.nanoapps

/-- A removal that changes the merge is accepted by the platform. -/
def removalAccepted (s : State) (call : Call) : Bool :=
  match s.target call with
  | none => true
  | some (_, requests) =>
    call.sensorRequest.mode != .off ||
      match requests.find call.instanceId with
      | none => true
      | some i => call.applied || isEquivalentTo (mergeAll requests.multiplexer.requests)
          (mergeAll (requests.multiplexer.requests.eraseIdx i))

lemma Sound.store (h : s.Sound) (hr : r.Sound) (sensorType : SensorType) :
    (s.store sensorType r).Sound := by
  intro t r' hr'
  have hr'' : (if t = sensorType then some r else s.sensorRequests t) = some r' := hr'
  split at hr''
  · cases hr''
    exact hr
  · exact h t r' hr''

lemma store_agrees (h : (s.store sensorType r).Agrees) : r.Agrees :=
  h sensorType r (if_pos rfl)

/-- The requests of one sensor are replaced by an equal list. -/
lemma store_storedRequests {r' : SensorRequests} (h : s.sensorRequests sensorType = some r)
    (hsame : r'.multiplexer.requests = r.multiplexer.requests) :
    (s.store sensorType r').storedRequests = s.storedRequests := by
  funext t
  show (if t = sensorType then some r' else s.sensorRequests t).elim [] _ = _
  by_cases ht : t = sensorType
  · unfold storedRequests
    rw [if_pos ht, ht, h]
    exact hsame
  · rw [if_neg ht]
    rfl

lemma target_spec {call : Call}
    (h : s.target call = some (sensorType, r)) : s.sensorRequests sensorType = some r := by
  unfold target at h
  dsimp only at h
  split at h
  · cases h
  · split at h
    · cases h
    · split at h
      · cases h
        assumption
      · cases h

/-- A call keeps the agreement and fails cleanly, unless the platform refuses a removal. -/
lemma step_sound (h : s.Sound) (call : Call) :
    (s.removalAccepted call ∧ (s.step call).Sound ∧ s.failsCleanly call) ∨
      (¬ s.removalAccepted call ∧ ¬ (s.step call).Agrees) := by
  unfold removalAccepted failsCleanly step setSensorRequest
  cases htarget : s.target call with
  | none => exact .inl ⟨rfl, h, fun _ => ⟨rfl, rfl⟩⟩
  | some found =>
    obtain ⟨sensorType, r⟩ := found
    have hstored := target_spec htarget
    have hr := h sensorType r hstored
    dsimp only
    by_cases hoff : call.sensorRequest.mode = .off
    · rw [hoff, bne_self_eq_false]
      cases hfind : r.find call.instanceId with
      | none => exact .inl ⟨rfl, h, nofun⟩
      | some i =>
        dsimp only
        rcases hremove : r.remove i call.applied with ⟨ok, r'⟩
        rcases SensorRequests.remove_sound hr hremove with ⟨hok, rfl, hr'⟩ | ⟨hbad, rfl, hnot⟩
        · exact .inl ⟨hok, h.store hr' sensorType, nofun⟩
        · exact .inr ⟨Bool.not_eq_true _ ▸ hbad, fun hagrees => hnot (store_agrees hagrees)⟩
    · have hmode : (call.sensorRequest.mode != .off) := bne_iff_ne.mpr hoff
      rw [if_neg hoff, hmode]
      refine .inl ⟨rfl, ?_⟩
      cases hfind : r.find call.instanceId with
      | none =>
        rcases hadd : r.add call.sensorRequest call.stored call.applied with ⟨ok, r'⟩
        obtain ⟨hr', hsame⟩ := SensorRequests.add_sound hr hadd
        cases ok with
        | true => exact ⟨h.store hr' sensorType, nofun⟩
        | false =>
          exact ⟨h.store hr' sensorType, fun _ => ⟨store_storedRequests hstored (hsame rfl), rfl⟩⟩
      | some i =>
        dsimp only
        rcases hupdate : r.update i call.sensorRequest call.applied with ⟨ok, r'⟩
        obtain ⟨hr', hsame⟩ := SensorRequests.update_sound hr hfind hupdate
        exact ⟨h.store hr' sensorType,
          fun hfalse => ⟨store_storedRequests hstored (hsame hfalse), rfl⟩⟩

/-- The manager after its construction: the sensors of the platform by their type, with their
shortest intervals, and no requests. -/
def init (minIntervals : SensorType → Option Nat) (nanoapps : List Nanoapp) : State where
  sensorRequests sensorType :=
    (minIntervals sensorType).map fun minInterval => { sensor := { minInterval := minInterval } }
  nanoapps := nanoapps

lemma init_sound (minIntervals : SensorType → Option Nat) (nanoapps : List Nanoapp) :
    (init minIntervals nanoapps).Sound := by
  intro sensorType r hr
  obtain ⟨minInterval, -, rfl⟩ := Option.map_eq_some_iff.mp hr
  exact ⟨LawfulRequest.refl _, LawfulRequest.refl _⟩

end State

/-- **Agreement with the platform.**  Throughout a run of calls the platform has accepted the
merge of the stored requests, and the calls that fail change nothing, if and only if the
platform accepts the removals that change the merge. -/
theorem agrees_iff (minIntervals : SensorType → Option Nat) (nanoapps : List Nanoapp)
    (calls : List Call) :
    (Throughout State.Agrees State.step (State.init minIntervals nanoapps) calls ∧
      EachStep State.failsCleanly State.step (State.init minIntervals nanoapps) calls) ↔
      EachStep (fun s call => s.removalAccepted call = true) State.step
        (State.init minIntervals nanoapps) calls :=
  throughout_iff_eachStep (I := State.Sound) (fun _ h t r hr => (h t r hr).agrees)
    (fun _ call h => State.step_sound h call) calls _ (State.init_sound minIntervals nanoapps)

/-- A nanoapp has an accelerometer request of 100 ms. -/
def clientState : State :=
  State.step (State.init (fun _ => some 1000000) [{ instanceId := 1 }])
    { instanceId := 1, sensorHandle := 1
      sensorRequest := SensorRequest.create (some 1) .activeContinuous 100000000 0 }

/-- The platform refuses to turn the sensor off: the call returns `false`, but the request is
gone, while the platform still has it and the nanoapp stays registered. -/
theorem refused_removal_forgets : let call : Call :=
      { instanceId := 1, sensorHandle := 1
        sensorRequest := SensorRequest.create (some 1) .off defaultNs defaultNs, applied := false }
    (clientState.setSensorRequest call).1 = false ∧
      (clientState.storedRequests .accelerometer).length = 1 ∧
      (clientState.step call).storedRequests .accelerometer = [] ∧
      ¬ (clientState.step call).Agrees ∧
      (clientState.step call).nanoapps = clientState.nanoapps := by
  refine ⟨by decide, by decide, by decide, fun h => ?_, by decide⟩
  have hagrees := h .accelerometer _ rfl
  unfold SensorRequests.Agrees at hagrees
  revert hagrees
  decide

end Sensors

end Chre
