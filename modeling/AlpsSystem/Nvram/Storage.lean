import AlpsSystem.Lib.CrashProg

/-!
# The storage under the NVRAM manager

The objects the access-controlled NVRAM keeps (`NvramHeader`, `NvramSpace`), the
storage they are kept in, and the calls of the persistence layer on it.  The
storage holds the decoded objects; the wire format they are written in is a
matter of its own.

A call is atomic.  Its outcome is drawn from a schedule (`Faults`): it is served
as `storage.h` documents, it reports `kNotFound` or `kStorageError` and has no
effect, or the device crashes just before it.  Memory allocation is scheduled in
the same way, so a theorem about every schedule is a theorem about every pattern
of failures and every crash point.

* `loadHeader`, `storeHeader`, `loadSpace`, `storeSpace`, `deleteSpaceData` — the
  persistence layer, each with the rule (`wp_…`) its callers use.
-/

namespace Nvram

/-- A byte string. -/
abbrev Blob := List UInt8

/-! ## Persistent objects -/

/-- The header object: the spaces that are defined, and the index that was being
created or deleted when the header was written. -/
structure NvramHeader where
  version : UInt32 := 1
  flags : UInt32 := 0
  allocatedIndices : List UInt32 := []
  provisionalIndex : Option UInt32 := none
  deriving DecidableEq, Repr

namespace NvramHeader

def kVersion : UInt32 := 1

def kFlagDisableCreate : UInt32 := 1

def hasFlag (h : NvramHeader) (flag : UInt32) : Bool := h.flags &&& flag != 0

def setFlag (h : NvramHeader) (flag : UInt32) : NvramHeader := { h with flags := h.flags ||| flag }

end NvramHeader

/-- The stored state of one space. -/
structure NvramSpace where
  flags : UInt32 := 0
  controls : UInt32 := 0
  authorizationValue : Blob := []
  contents : Blob := []
  deriving DecidableEq, Repr

namespace NvramSpace

def kFlagWriteLocked : UInt32 := 1

def hasFlag (s : NvramSpace) (flag : UInt32) : Bool := s.flags &&& flag != 0

def setFlag (s : NvramSpace) (flag : UInt32) : NvramSpace := { s with flags := s.flags ||| flag }

def hasControl (s : NvramSpace) (control : UInt32) : Bool := s.controls &&& (1 <<< control) != 0

end NvramSpace

/-- What the storage holds: at most one header, and at most one object for an index. -/
structure Storage where
  header : Option NvramHeader := none
  space : UInt32 → Option NvramSpace := fun _ => none

namespace Storage

/-- Put `s` at `index`, or nothing when `s` is `none`. -/
def setSpace (st : Storage) (index : UInt32) (s : Option NvramSpace) : Storage :=
  { st with space := fun i => if i = index then s else st.space i }

lemma setSpace_space (st : Storage) (index : UInt32) (s : Option NvramSpace) (i : UInt32) :
    (st.setSpace index s).space i = if i = index then s else st.space i := rfl

@[simp] lemma setSpace_self (st : Storage) (index : UInt32) (s : Option NvramSpace) :
    (st.setSpace index s).space index = s := if_pos rfl

lemma setSpace_other (st : Storage) {index i : UInt32} (s : Option NvramSpace) (h : i ≠ index) :
    (st.setSpace index s).space i = st.space i := if_neg h

end Storage

/-! ## The transient state of the manager -/

/-- The per-boot state of an allocated space. -/
structure SpaceListEntry where
  index : UInt32
  writeLocked : Bool := false
  readLocked : Bool := false
  deriving DecidableEq, Repr

/-- The members of `NvramManager`.  `spaces` is the used part
`spaces_[0 .. num_spaces_)` of the array, so `num_spaces_` is its length.  `overrun` says that an
entry was written behind the end of the array, after which anything may happen. -/
structure NvramManager where
  initialized : Bool := false
  disableCreate : Bool := false
  disableWipe : Bool := false
  spaces : List SpaceListEntry := []
  overrun : Bool := false
  deriving DecidableEq, Repr

/-- The indices the manager holds, in array order. -/
def NvramManager.indices (m : NvramManager) : List UInt32 := m.spaces.map (·.index)

/-! ## Outcomes of calls -/

/-- The places where the environment decides how a call goes. -/
inductive Call where
  | loadHeader
  | storeHeader
  | loadSpace
  | storeSpace
  | deleteSpace
  | allocate
  deriving DecidableEq, Repr

/-- How one call goes. -/
inductive Outcome where
  /-- The call does what its documentation says. -/
  | served
  /-- The call reports `kNotFound` and does nothing. -/
  | notFound
  /-- The call reports `kStorageError` (or fails to allocate) and does nothing. -/
  | storageError
  /-- The device loses power before the call. -/
  | crash
  deriving DecidableEq, Repr

/-- For each kind of call the outcomes of the next calls; later calls are served. -/
abbrev Faults := Call → List Outcome

/-- Every call is served. -/
def Faults.none : Faults := fun _ => []

/-- The manager, the storage, and the schedule of outcomes. -/
structure Machine where
  mgr : NvramManager := {}
  storage : Storage := {}
  faults : Faults := Faults.none

/-- Code of the NVRAM core. -/
abbrev Prog := CrashProg Machine

open CrashProg (wp wp_bind wp_pure wp_get wp_modify wp_crash)

/-- Read the manager. -/
def manager : Prog NvramManager := do
  let w ← CrashProg.get
  return w.mgr

/-- Change the manager. -/
def setManager (f : NvramManager → NvramManager) : Prog Unit :=
  CrashProg.modify fun w => { w with mgr := f w.mgr }

/-- Change the storage. -/
def setStorage (f : Storage → Storage) : Prog Unit :=
  CrashProg.modify fun w => { w with storage := f w.storage }

/-- The outcome of the next call of kind `c`. -/
def outcome (w : Machine) (c : Call) : Outcome := (w.faults c).headD .served

/-- The machine after a call of kind `c` has used up its outcome. -/
def Machine.drew (w : Machine) (c : Call) : Machine :=
  { w with faults := fun c' => if c' = c then (w.faults c).tail else w.faults c' }

/-- Draw the outcome of a call; a scheduled crash ends the program. -/
def call (c : Call) : Prog Outcome := do
  let w ← CrashProg.get
  CrashProg.modify (·.drew c)
  if outcome w c = .crash then CrashProg.crash else return outcome w c

/-! ## The persistence layer -/

/-- The status of a call. -/
inductive Status where
  | kSuccess
  | kNotFound
  | kStorageError
  deriving DecidableEq, Repr

/-- The status of a load, with the object it delivers. -/
inductive Loaded (α : Type) where
  | kSuccess (a : α)
  | kNotFound
  | kStorageError

/-- A load delivers what is stored, and `kNotFound` when nothing is. -/
def load {α : Type} (c : Call) (read : Storage → Option α) : Prog (Loaded α) := do
  match ← call c with
  | .served =>
    let w ← CrashProg.get
    match read w.storage with
    | some a => return .kSuccess a
    | none => return .kNotFound
  | .notFound => return .kNotFound
  | _ => return .kStorageError

/-- A store replaces the object. -/
def store (c : Call) (write : Storage → Storage) : Prog Status := do
  match ← call c with
  | .served =>
    setStorage write
    return .kSuccess
  | .notFound => return .kNotFound
  | _ => return .kStorageError

def loadHeader : Prog (Loaded NvramHeader) := load .loadHeader (·.header)

def storeHeader (header : NvramHeader) : Prog Status :=
  store .storeHeader fun st => { st with header := some header }

def loadSpace (index : UInt32) : Prog (Loaded NvramSpace) := load .loadSpace (·.space index)

def storeSpace (index : UInt32) (space : NvramSpace) : Prog Status :=
  store .storeSpace fun st => st.setSpace index (some space)

/-- `storage::DeleteSpace`: `kNotFound` when there was nothing to delete. -/
def deleteSpaceData (index : UInt32) : Prog Status := do
  match ← call .deleteSpace with
  | .served =>
    let w ← CrashProg.get
    setStorage fun st => st.setSpace index none
    return if (w.storage.space index).isSome then .kSuccess else .kNotFound
  | .notFound => return .kNotFound
  | _ => return .kStorageError

/-- Whether a memory allocation succeeds. -/
def allocate : Prog Bool := do
  return (← call .allocate) = .served

/-- An allocation that is only made when it is needed. -/
def allocateIf (needed : Bool) : Prog Bool :=
  if needed then allocate else return true

/-! ## Rules for the calls -/

@[simp] lemma drew_mgr (w : Machine) (c : Call) : (w.drew c).mgr = w.mgr := rfl

@[simp] lemma drew_storage (w : Machine) (c : Call) : (w.drew c).storage = w.storage := rfl

lemma drew_faults_other (w : Machine) {c c' : Call} (h : c' ≠ c) :
    (w.drew c).faults c' = w.faults c' := if_neg h

lemma drew_faults_subset (w : Machine) (c c' : Call) : (w.drew c).faults c' ⊆ w.faults c' := by
  by_cases h : c' = c
  · subst h
    have : (w.drew c').faults c' = (w.faults c').tail := if_pos rfl
    rw [this]
    exact fun _ h => List.mem_of_mem_tail h
  · rw [drew_faults_other w h]
    exact List.Subset.refl _

/-- Only a call that is served goes beyond what the schedule lists. -/
lemma mem_faults_of_outcome {w : Machine} {c : Call} {o : Outcome} (h : outcome w c = o)
    (hne : o ≠ .served) : o ∈ w.faults c := by
  unfold outcome at h
  cases hf : w.faults c with
  | nil => rw [hf] at h; exact absurd h.symm hne
  | cons o' os =>
    rw [hf] at h
    rw [← show o' = o from h]
    exact List.mem_cons_self

section Rules

variable {α : Type} {w : Machine} {C : Machine → Prop} {c : Call} {Q : Status → Machine → Prop}

@[simp] lemma wp_manager {Q : NvramManager → Machine → Prop} :
    wp manager Q C w ↔ Q w.mgr w := Iff.rfl

@[simp] lemma wp_setManager {f : NvramManager → NvramManager} {Q : Unit → Machine → Prop} :
    wp (setManager f) Q C w ↔ Q () { w with mgr := f w.mgr } := Iff.rfl

lemma wp_call {Q : Outcome → Machine → Prop} (hcrash : C (w.drew c))
    (hret : outcome w c ≠ .crash → Q (outcome w c) (w.drew c)) : wp (call c) Q C w := by
  unfold call
  simp only [wp_bind, wp_get]
  split
  · exact hcrash
  · rename_i h
    exact hret h

lemma wp_load {read : Storage → Option α} {Q : Loaded α → Machine → Prop} (hcrash : C (w.drew c))
    (hsuccess : ∀ a, outcome w c = .served → read w.storage = some a →
      Q (.kSuccess a) (w.drew c))
    (hnone : outcome w c = .served → read w.storage = none → Q .kNotFound (w.drew c))
    (hnotFound : outcome w c = .notFound → Q .kNotFound (w.drew c))
    (herror : outcome w c = .storageError → Q .kStorageError (w.drew c)) :
    wp (load c read) Q C w := by
  unfold load
  rw [wp_bind]
  refine wp_call hcrash ?_
  intro hne
  cases ho : outcome w c with
  | crash => exact absurd ho hne
  | notFound => exact hnotFound ho
  | storageError => exact herror ho
  | served =>
    simp only [wp_bind, wp_get, drew_storage]
    cases hr : read w.storage with
    | none => exact hnone ho hr
    | some a => exact hsuccess a ho hr

lemma wp_store {write : Storage → Storage} (hcrash : C (w.drew c))
    (hsuccess : Q .kSuccess { w.drew c with storage := write w.storage })
    (hnotFound : outcome w c = .notFound → Q .kNotFound (w.drew c))
    (herror : outcome w c = .storageError → Q .kStorageError (w.drew c)) :
    wp (store c write) Q C w := by
  unfold store
  rw [wp_bind]
  refine wp_call hcrash ?_
  intro hne
  cases ho : outcome w c with
  | crash => exact absurd ho hne
  | notFound => exact hnotFound ho
  | storageError => exact herror ho
  | served => exact hsuccess

lemma wp_deleteSpaceData {index : UInt32} (hcrash : C (w.drew .deleteSpace))
    (hserved : ∀ status ≠ Status.kStorageError,
      Q status { w.drew .deleteSpace with storage := w.storage.setSpace index none })
    (hnotFound : outcome w .deleteSpace = .notFound → Q .kNotFound (w.drew .deleteSpace))
    (herror : outcome w .deleteSpace = .storageError → Q .kStorageError (w.drew .deleteSpace)) :
    wp (deleteSpaceData index) Q C w := by
  unfold deleteSpaceData
  rw [wp_bind]
  refine wp_call hcrash ?_
  intro hne
  cases ho : outcome w .deleteSpace with
  | crash => exact absurd ho hne
  | notFound => exact hnotFound ho
  | storageError => exact herror ho
  | served =>
    refine hserved _ ?_
    split <;> simp

lemma wp_allocate {Q : Bool → Machine → Prop} (hcrash : C (w.drew .allocate))
    (hret : ∀ ok, Q ok (w.drew .allocate)) : wp allocate Q C w := by
  unfold allocate
  rw [wp_bind]
  refine wp_call hcrash ?_
  intro _
  exact hret _

lemma wp_allocateIf {needed : Bool} {Q : Bool → Machine → Prop} (hcrash : C (w.drew .allocate))
    (hskip : Q true w) (hret : ∀ ok, Q ok (w.drew .allocate)) : wp (allocateIf needed) Q C w := by
  cases needed with
  | false => exact hskip
  | true => exact wp_allocate hcrash hret

end Rules

end Nvram
