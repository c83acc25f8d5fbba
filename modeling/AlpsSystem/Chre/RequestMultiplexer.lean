import Mathlib

/-!
# The request multiplexer

`RequestMultiplexer` of `chre/core/include/chre/core/request_multiplexer_impl.h`: a list of
requests with the maximal request that serves them all, for any type of requests that can be
merged and compared.
-/

namespace Chre

/-- What the template argument of `RequestMultiplexer` offers. -/
class Request (α : Type) where
  /-- The value of the default constructor. -/
  defaultRequest : α
  /-- Whether an attribute has changed, and the merged request. -/
  mergeWith : α → α → Bool × α
  isEquivalentTo : α → α → Bool

/-- Requests are compared by what a merge reads. -/
class LawfulRequest (α : Type) [Request α] : Prop where
  refl (a : α) : Request.isEquivalentTo a a = true
  symm {a b : α} : Request.isEquivalentTo a b = true → Request.isEquivalentTo b a = true
  trans {a b c : α} : Request.isEquivalentTo a b = true → Request.isEquivalentTo b c = true →
    Request.isEquivalentTo a c = true
  merge_unchanged {a request : α} : (Request.mergeWith a request).1 = false →
    Request.isEquivalentTo (Request.mergeWith a request).2 a = true
  merge_congr {a b : α} (request : α) : Request.isEquivalentTo a b = true →
    Request.isEquivalentTo (Request.mergeWith a request).2 (Request.mergeWith b request).2 = true

structure RequestMultiplexer (α : Type) [Request α] where
  requests : List α := []
  currentMaximalRequest : α := Request.defaultRequest

open LawfulRequest

namespace RequestMultiplexer

open Request

variable {α : Type} [Request α]

/-- The merge of a list of requests from the default request. -/
def mergeAll (requests : List α) : α :=
  requests.foldl (fun maximal request => (mergeWith maximal request).2) defaultRequest

/-- `updateMaximalRequest`, with `*maximalRequestChanged`. -/
def updateMaximalRequest (m : RequestMultiplexer α) : Bool × RequestMultiplexer α :=
  let maximalRequest := mergeAll m.requests
  if isEquivalentTo m.currentMaximalRequest maximalRequest then (false, m)
  else (true, { m with currentMaximalRequest := maximalRequest })

/-- `addRequest`, with the index and `*maximalRequestChanged`; `none` if there is no memory. -/
def addRequest (m : RequestMultiplexer α) (request : α) (requestStored : Bool) :
    Option (Nat × Bool × RequestMultiplexer α) :=
  if requestStored then
    let merged := mergeWith m.currentMaximalRequest request
    some (m.requests.length, merged.1,
      { requests := m.requests ++ [request], currentMaximalRequest := merged.2 })
  else none

/-- `updateRequest` at an index in range. -/
def updateRequest (m : RequestMultiplexer α) (index : Nat) (request : α) :
    Bool × RequestMultiplexer α :=
  updateMaximalRequest { m with requests := m.requests.set index request }

/-- `removeRequest` at an index in range. -/
def removeRequest (m : RequestMultiplexer α) (index : Nat) : Bool × RequestMultiplexer α :=
  updateMaximalRequest { m with requests := m.requests.eraseIdx index }

/-- The maximal request is the merge of the list. -/
def Consistent (m : RequestMultiplexer α) : Prop :=
  isEquivalentTo m.currentMaximalRequest (mergeAll m.requests) = true

/-- An operation has replaced the list by `requests`, and has reported whether the maximal
request has changed. -/
structure Replaced (m : RequestMultiplexer α) (requests : List α)
    (result : Bool × RequestMultiplexer α) : Prop where
  stored : result.2.requests = requests
  consistent : result.2.Consistent
  unchanged : result.1 = false →
    isEquivalentTo m.currentMaximalRequest result.2.currentMaximalRequest = true

variable [LawfulRequest α] {m : RequestMultiplexer α}

lemma updateMaximalRequest_spec (m : RequestMultiplexer α) (requests : List α) :
    m.Replaced requests (updateMaximalRequest { m with requests }) := by
  unfold updateMaximalRequest
  dsimp only
  split
  case isTrue hequiv => exact ⟨rfl, hequiv, fun _ => refl _⟩
  case isFalse => exact ⟨rfl, refl _, nofun⟩

/-- A change is reported exactly if the merge of the list changes. -/
lemma updateMaximalRequest_changed (h : m.Consistent) (requests : List α) :
    (updateMaximalRequest { m with requests }).1 =
      !isEquivalentTo (mergeAll m.requests) (mergeAll requests) := by
  have hsame : isEquivalentTo m.currentMaximalRequest (mergeAll requests) =
      isEquivalentTo (mergeAll m.requests) (mergeAll requests) :=
    Bool.eq_iff_iff.mpr ⟨trans (symm h), trans h⟩
  unfold updateMaximalRequest
  dsimp only
  rw [hsame]
  cases isEquivalentTo (mergeAll m.requests) (mergeAll requests) <;> rfl

lemma addRequest_spec (h : m.Consistent) {request : α}
    {requestStored : Bool} {index : Nat} {result : Bool × RequestMultiplexer α}
    (hadd : m.addRequest request requestStored = some (index, result)) :
    index = m.requests.length ∧ m.Replaced (m.requests ++ [request]) result := by
  unfold addRequest at hadd
  split at hadd
  · cases hadd
    refine ⟨rfl, rfl, ?_, fun hfalse => symm (merge_unchanged hfalse)⟩
    unfold Consistent mergeAll
    rw [List.foldl_append]
    exact merge_congr request h
  · cases hadd

end RequestMultiplexer

end Chre
