import Mathlib

/-!
# HAL manifests

How `add` and `addAll` build a `HalManifest`, and the two questions asked of it: the transport of an
instance, and whether a HAL of a compatibility matrix is satisfied.

`std::map` is an `AList` and `std::set` a `Finset`: the loops over them only look for some entry, so
their order does not show. The format of an entry and the log lines are left out.
-/

namespace Vintf

open List

structure Version where
  majorVer : Nat := 0
  minorVer : Nat := 0
deriving DecidableEq

structure VersionRange where
  majorVer : Nat := 0
  minMinor : Nat := 0
  maxMinor : Nat := 0

namespace VersionRange

def minVer (r : VersionRange) : Version := ⟨r.majorVer, r.minMinor⟩

/-- The maximal minor version is only informational. -/
def supportedBy (r : VersionRange) (ver : Version) : Bool :=
  r.majorVer == ver.majorVer && decide (r.minMinor ≤ ver.minorVer)

end VersionRange

inductive Transport where
  | empty | passthrough | hwbinder

inductive Arch where
  | empty | arch32 | arch64 | arch32And64
deriving DecidableEq

structure TransportArch where
  transport : Transport := .empty
  arch : Arch := .empty

def TransportArch.isValid (t : TransportArch) : Bool :=
  match t.transport with
  | .empty | .hwbinder => t.arch == .empty
  | .passthrough => t.arch != .empty

structure HalInterface where
  name : String
  instances : Finset String

abbrev Interfaces := AList fun _ : String => HalInterface

structure ManifestHal where
  name : String
  versions : List Version
  transportArch : TransportArch := {}
  interfaces : Interfaces := ∅

structure MatrixHal where
  name : String
  versionRanges : List VersionRange
  interfaces : Interfaces := ∅

/-- Whether every major version can be inserted: none is there yet, and none comes twice. -/
def insertMajors : List Nat → List Version → Bool
  | _, [] => true
  | existing, v :: vs =>
    if v.majorVer ∈ existing then false else insertMajors (v.majorVer :: existing) vs

def ManifestHal.isValid (hal : ManifestHal) : Bool :=
  insertMajors [] hal.versions && hal.transportArch.isValid

/-- Entries of one name stand in the order in which they came. -/
structure HalManifest where
  mHals : List ManifestHal := []
  sorted : mHals.Pairwise (·.name ≤ ·.name) := by simp

namespace HalManifest

def getHals (m : HalManifest) (name : String) : List ManifestHal := m.mHals.filter (·.name == name)

def existingMajorVersions (m : HalManifest) (name : String) : List Nat :=
  ((m.getHals name).flatMap (·.versions)).map (·.majorVer)

def shouldAdd (m : HalManifest) (hal : ManifestHal) : Bool :=
  hal.isValid && insertMajors (m.existingMajorVersions hal.name) hal.versions

lemma emplace_sorted {hals : List ManifestHal} (h : hals.Pairwise (·.name ≤ ·.name))
    (hal : ManifestHal) :
    (hals.takeWhile (·.name ≤ hal.name) ++ hal :: hals.dropWhile (·.name ≤ hal.name)).Pairwise
      (·.name ≤ ·.name) := by
  induction hals with
  | nil => simp
  | cons a hals ih =>
    rw [pairwise_cons] at h
    by_cases ha : a.name ≤ hal.name
    · have hmem : ∀ c ∈ hals.takeWhile (·.name ≤ hal.name) ++
          hal :: hals.dropWhile (·.name ≤ hal.name), c = hal ∨ c ∈ hals := by
        intro c hc
        have hc := perm_middle.mem_iff.mp hc
        rwa [takeWhile_append_dropWhile, mem_cons] at hc
      simp only [ha, decide_true, takeWhile_cons_of_pos, dropWhile_cons_of_pos,
        cons_append, pairwise_cons]
      refine ⟨fun c hc => ?_, ih h.2⟩
      rcases hmem c hc with rfl | hc
      · exact ha
      · exact h.1 c hc
    · have hlt : hal.name ≤ a.name := (not_le.mp ha).le
      simp only [ha, decide_false, takeWhile_cons, dropWhile_cons, Bool.false_eq_true,
        if_false, nil_append, pairwise_cons, mem_cons]
      refine ⟨?_, h⟩
      rintro c (rfl | hc)
      · exact hlt
      · exact hlt.trans (h.1 c hc)

/-- `std::multimap::emplace`: behind the entries of the same name. -/
def emplace (m : HalManifest) (hal : ManifestHal) : HalManifest :=
  ⟨m.mHals.takeWhile (·.name ≤ hal.name) ++ hal :: m.mHals.dropWhile (·.name ≤ hal.name),
    emplace_sorted m.sorted hal⟩

def add (m : HalManifest) (hal : ManifestHal) : Bool × HalManifest :=
  if m.shouldAdd hal then (true, m.emplace hal) else (false, m)

/-- `addAll`, with the name of the entry that is refused: those before it stay. -/
def addAll (m : HalManifest) : List ManifestHal → Option String × HalManifest
  | [] => (none, m)
  | hal :: rest =>
    match m.add hal with
    | (true, m') => m'.addAll rest
    | (false, m') => (some hal.name, m')

/-- The checks of `getTransport` on one entry. -/
def serves (hal : ManifestHal) (v : Version) (interfaceName instanceName : String) : Bool :=
  hal.versions.any (fun ver => ver.majorVer == v.majorVer && decide (v.minorVer ≤ ver.minorVer)) &&
    match hal.interfaces.lookup interfaceName with
    | none => false
    | some interface => decide (instanceName ∈ interface.instances)

def getTransport (m : HalManifest) (package : String) (v : Version)
    (interfaceName instanceName : String) : Transport :=
  match (m.getHals package).find? (serves · v interfaceName instanceName) with
  | some hal => hal.transportArch.transport
  | none => .empty

end HalManifest

/-! ## Compatibility -/

abbrev InstancesOfVersion := AList fun _ : String => Finset String

abbrev Instances := AList fun _ : Version => InstancesOfVersion

def satisfyVersion (matrixHal : MatrixHal) (v : Version) : Bool :=
  matrixHal.versionRanges.any (·.supportedBy v)

/-- Whether the interfaces of `matrixHal` are a subset of `instancesOfVersion`. -/
def satisfyAllInstances (matrixHal : MatrixHal) (instancesOfVersion : InstancesOfVersion) : Bool :=
  matrixHal.interfaces.entries.all fun required =>
    match instancesOfVersion.lookup required.1 with
    | none => false
    | some instances => decide (required.2.instances ⊆ instances)

/-- `cell[interface].insert(toAdd.begin(), toAdd.end())`. -/
def addInterface (cell : InstancesOfVersion) (p : Sigma fun _ : String => HalInterface) :
    InstancesOfVersion :=
  cell.insert p.1 ((cell.lookup p.1).getD ∅ ∪ p.2.instances)

/-- One version of an entry: its cell is reset, then filled in place. -/
def addVersion (interfaces : Interfaces) (instances : Instances) (v : Version) : Instances :=
  interfaces.entries.foldl
    (fun instances p => instances.insert v (addInterface ((instances.lookup v).getD ∅) p))
    (instances.insert v ∅)

def addEntry (instances : Instances) (hal : ManifestHal) : Instances :=
  hal.versions.foldl (addVersion hal.interfaces) instances

def HalManifest.isCompatible (m : HalManifest) (matrixHal : MatrixHal) : Bool :=
  ((m.getHals matrixHal.name).foldl addEntry ∅).entries.any fun p =>
    satisfyVersion matrixHal p.1 && satisfyAllInstances matrixHal p.2

/-! ## Building a manifest -/

inductive Op where
  | add (hal : ManifestHal)
  | addAll (other : HalManifest)

def HalManifest.apply (m : HalManifest) : Op → HalManifest
  | .add hal => (m.add hal).2
  | .addAll other => (m.addAll other.mHals).2

def build (ops : List Op) : HalManifest := ops.foldl HalManifest.apply {}

end Vintf
