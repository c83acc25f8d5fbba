import Mathlib

/-!
# Sensor requests

The requests of `chre/core/sensor_request.cc` and how two of them are merged.  Intervals and
latencies are 64-bit numbers of nanoseconds.
-/

namespace Chre

/-- `SensorType`, without `SENSOR_TYPE_COUNT`. -/
inductive SensorType where
  | unknown
  | accelerometer
  | instantMotion
  | stationaryDetect
  | gyroscope
  | geomagneticField
  | pressure
  | light
  | proximity
  | accelerometerTemperature
  | gyroscopeTemperature
  | uncalibratedAccelerometer
  | uncalibratedGyroscope
  | uncalibratedGeomagneticField
  deriving DecidableEq, Repr

/-- The types in the order of the enumeration. -/
def sensorTypes : List SensorType :=
  [.unknown, .accelerometer, .instantMotion, .stationaryDetect, .gyroscope, .geomagneticField,
    .pressure, .light, .proximity, .accelerometerTemperature, .gyroscopeTemperature,
    .uncalibratedAccelerometer, .uncalibratedGyroscope, .uncalibratedGeomagneticField]

def getSensorTypeFromSensorHandle (handle : Nat) : SensorType := sensorTypes.getD handle .unknown

/-- `getUnsignedIntFromSensorType`: the `CHRE_SENSOR_TYPE_*` of the interface. -/
def getUnsignedIntFromSensorType : SensorType → Nat
  | .unknown => 0
  | .accelerometer => 1
  | .instantMotion => 2
  | .stationaryDetect => 3
  | .gyroscope => 6
  | .uncalibratedGyroscope => 7
  | .geomagneticField => 8
  | .uncalibratedGeomagneticField => 9
  | .pressure => 10
  | .light => 12
  | .proximity => 13
  | .uncalibratedAccelerometer => 55
  | .accelerometerTemperature => 56
  | .gyroscopeTemperature => 57

/-- `CHRE_EVENT_SENSOR_DATA_EVENT_BASE`. -/
def sensorDataEventBase : Nat := 0x0100

def getSampleEventTypeForSensorType (sensorType : SensorType) : Nat :=
  sensorDataEventBase + getUnsignedIntFromSensorType sensorType

def sensorTypeIsOneShot (sensorType : SensorType) : Bool :=
  sensorType == .instantMotion || sensorType == .stationaryDetect

def sensorTypeIsOnChange (sensorType : SensorType) : Bool :=
  sensorType == .light || sensorType == .proximity

inductive SensorMode where
  | off
  | activeContinuous
  | activeOneShot
  | passiveContinuous
  | passiveOneShot
  deriving DecidableEq, Repr

def sensorModeIsContinuous (mode : SensorMode) : Bool :=
  mode == .activeContinuous || mode == .passiveContinuous

def sensorModeIsOneShot (mode : SensorMode) : Bool :=
  mode == .activeOneShot || mode == .passiveOneShot

/-- `CHRE_SENSOR_INTERVAL_DEFAULT`, `CHRE_SENSOR_LATENCY_DEFAULT` and
`CHRE_SENSOR_BATCH_INTERVAL_DEFAULT` are the largest 64-bit number. -/
def defaultNs : Nat := 2 ^ 64 - 1

def kMaxIntervalLatencyNs : Nat := (2 ^ 64 - 1 - 1) / 2

structure SensorRequest where
  /-- The instance ID of the nanoapp that made the request. -/
  nanoapp : Option Nat
  mode : SensorMode
  interval : Nat
  latency : Nat
  deriving DecidableEq, Repr

namespace SensorRequest

/-- The constructor: values other than the default are capped. -/
def create (nanoapp : Option Nat) (mode : SensorMode) (interval latency : Nat) : SensorRequest where
  nanoapp := nanoapp
  mode := mode
  interval := if interval ≠ defaultNs then min interval kMaxIntervalLatencyNs else interval
  latency := if latency ≠ defaultNs then min latency kMaxIntervalLatencyNs else latency

/-- `SensorRequest()`. -/
def defaultRequest : SensorRequest := create none .off defaultNs defaultNs

def isEquivalentTo (self request : SensorRequest) : Bool :=
  self.mode == request.mode && self.interval == request.interval && self.latency == request.latency

def getBatchInterval (request : SensorRequest) : Nat :=
  if request.interval = defaultNs ∨ request.latency = defaultNs then defaultNs
  else (request.interval + request.latency) % 2 ^ 64

/-- The mode of highest priority of the two. -/
def maximalSensorMode (mode mode' : SensorMode) : SensorMode :=
  if mode = .activeContinuous ∨ mode' = .activeContinuous then .activeContinuous
  else if mode = .activeOneShot ∨ mode' = .activeOneShot then .activeOneShot
  else if mode = .passiveContinuous ∨ mode' = .passiveContinuous then .passiveContinuous
  else if mode = .passiveOneShot ∨ mode' = .passiveOneShot then .passiveOneShot
  else .off

/-- `mergeWith`: whether an attribute has changed, and the merged request. -/
def mergeWith (self request : SensorRequest) : Bool × SensorRequest :=
  if request.mode ≠ .off then
    let batchInterval := min self.getBatchInterval request.getBatchInterval
    let interval := min self.interval request.interval
    let latency :=
      if batchInterval = defaultNs then min self.latency request.latency
      else (batchInterval + 2 ^ 64 - interval) % 2 ^ 64
    let mode := maximalSensorMode self.mode request.mode
    (interval != self.interval || latency != self.latency || mode != self.mode,
      { self with mode := mode, interval := interval, latency := latency })
  else (false, self)

/-- What `isEquivalentTo` compares. -/
def attributes (request : SensorRequest) : SensorMode × Nat × Nat :=
  (request.mode, request.interval, request.latency)

lemma isEquivalentTo_iff {a b : SensorRequest} :
    a.isEquivalentTo b ↔ a.attributes = b.attributes := by
  unfold isEquivalentTo attributes
  simp [and_assoc]

/-- A merge that changes no attribute. -/
lemma mergeWith_unchanged {a request : SensorRequest} (h : (a.mergeWith request).1 = false) :
    (a.mergeWith request).2 = a := by
  unfold mergeWith at h ⊢
  split
  case isTrue hmode =>
    rw [if_pos hmode] at h
    simp only [Bool.or_eq_false_iff, bne_eq_false_iff_eq] at h
    obtain ⟨⟨hinterval, hlatency⟩, hmode'⟩ := h
    dsimp only
    rw [hlatency, hinterval, hmode']
  case isFalse => rfl

/-- The merge depends on the attributes only. -/
lemma mergeWith_attributes {a b : SensorRequest} (h : a.attributes = b.attributes)
    (request : SensorRequest) :
    (a.mergeWith request).2.attributes = (b.mergeWith request).2.attributes := by
  obtain ⟨app', mode', interval', latency'⟩ := b
  cases h
  unfold mergeWith
  split <;> rfl

end SensorRequest

end Chre
