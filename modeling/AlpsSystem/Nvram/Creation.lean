import AlpsSystem.Nvram.Bookkeeping

/-!
# Creating a space

`CreateSpace` enters the new index in the list of spaces before it asks for memory.

* `createSpace_atomic_iff` — when a request that fails leaves the list as it was, and one that
  succeeds stores exactly the controls it names.
-/

namespace Nvram

open CrashProg (wp wp_bind wp_pure wp_ite wp_mono)

/-! ## Control masks -/

open UInt32 (toNat_inj and_comm ofNat ofNat_toNat)

lemma and_or_distrib (x y z : UInt32) : x &&& (y ||| z) = x &&& y ||| x &&& z := by
  rw [← toNat_inj]
  simp [Nat.and_or_distrib_left]

lemma or_and_ne_zero (x y z : UInt32) : (x ||| y) &&& z ≠ 0 ↔ x &&& z ≠ 0 ∨ y &&& z ≠ 0 := by
  rw [UInt32.and_comm, and_or_distrib, Ne, UInt32.or_eq_zero_iff, not_and_or,
    and_comm z, and_comm z]

open Build

lemma bit_and_bit {c d : UInt32} (hc : c < 32) (hd : d < 32) :
    bit c &&& bit d ≠ 0 ↔ c = d := by
  have hbits : ∀ n < 32, ∀ k < 32,
      bit (ofNat n) &&& bit (ofNat k) ≠ 0 ↔ n = k := by decide +kernel
  have hcd := hbits c.toNat hc d.toNat hd
  rwa [ofNat_toNat, ofNat_toNat, toNat_inj] at hcd

/-- A mask has the bits of its controls. -/
lemma controlMask_and_bit {l : List UInt32} (hl : ∀ c ∈ l, c < 32) {d : UInt32} (hd : d < 32) :
    controlMask l &&& bit d ≠ 0 ↔ d ∈ l := by
  suffices hfold : ∀ mask : UInt32, l.foldl (fun mask c => mask ||| bit c) mask &&&
      bit d ≠ 0 ↔ mask &&& bit d ≠ 0 ∨ d ∈ l by
    simpa [controlMask] using hfold 0
  induction l with
  | nil => simp
  | cons c l ih =>
    intro mask
    rw [List.foldl_cons, ih fun c hc => hl c (List.mem_cons_of_mem _ hc), or_and_ne_zero,
      bit_and_bit (hl c List.mem_cons_self) hd, List.mem_cons, or_assoc, eq_comm]

/-- The controls that `kSupportedControlsMask` is made of. -/
def Build.supportedControls (b : Build) : List UInt32 :=
  [b.controlPersistentWriteLock, b.controlBootWriteLock, b.controlBootReadLock,
    b.controlWriteAuthorization, b.controlReadAuthorization, b.controlWriteExtend]

lemma kSupportedControlsMask_eq (b : Build) :
    b.kSupportedControlsMask = controlMask b.supportedControls := by
  simp [kSupportedControlsMask, controlMask, supportedControls]

lemma supported_of_mask {b : Build} (hb : ∀ c ∈ b.supportedControls, c < 32) {l : List UInt32}
    (hl : ∀ c ∈ l, c < 32) (hmask : controlMask l &&& ~~~ b.kSupportedControlsMask = 0) :
    ∀ c ∈ l, c ∈ b.supportedControls := by
  intro c hc
  have hbit := (controlMask_and_bit hl (hl c hc)).mpr hc
  rw [← controlMask_and_bit hb (hl c hc), ← kSupportedControlsMask_eq]
  generalize b.kSupportedControlsMask = supported at hmask ⊢
  have hsplit : controlMask l = controlMask l &&& supported := by
    have hall : controlMask l &&& (supported ||| ~~~ supported) = controlMask l := by
      rw [UInt32.or_not_self, UInt32.and_neg_one]
    rwa [and_or_distrib, hmask, UInt32.or_zero, eq_comm] at hall
  intro hzero
  rw [hsplit, UInt32.and_assoc, hzero, UInt32.and_zero] at hbit
  exact hbit rfl

/-! ## The request -/

variable {b : Build} {w : Machine} {C : Machine → Prop} {q : CreateSpaceRequest}

open NvramManager

/-- The two writes: the new entry goes if one of them fails. -/
lemma createSpaceWrites_atomic {m : NvramManager} {index : UInt32} (space : NvramSpace)
    (hm : w.mgr = m.push index) :
    wp (createSpaceWrites index space) (fun result w' =>
      (result ≠ .success → w'.mgr = m) ∧
        (result = .success → w'.storage.space index = some space)) (fun _ => True) w := by
  have hpop : (m.push index).pop = m := by simp [push, pop]
  rw [createSpaceWrites, wp_bind]
  refine writeHeader_wp (fun _ _ => trivial) ?_ ?_
  · intro w1 hm1 _ _ _
    simp only [wp_bind, writeSpaceData]
    refine wp_store trivial ?_ ?_ ?_
    · simp
    · simp [hm1, hm, hpop]
    · simp [hm1, hm, hpop]
  · intro w1 hm1 _ _
    simp [hm1, hm, hpop]

/-- The request is not refused before its index is entered. -/
def Passes (b : Build) (q : CreateSpaceRequest) (m : NvramManager) : Prop :=
  m.disableCreate = false ∧ checkCreate b m q = none

/-- How many times memory is asked for between the entry and the two writes. -/
def ownAllocations (b : Build) (q : CreateSpaceRequest) : Nat :=
  if wantsAuthorization b (controlMask q.controls) then 2 else 1

/-- One of the next `n` calls is reached and refused. -/
def refuses : List Outcome → (n : Nat) → Bool
  | .served :: outcomes, n + 1 => refuses outcomes n
  | .notFound :: _, _ + 1 | .storageError :: _, _ + 1 => true
  | _, _ => false

/-- The space is stored with exactly the controls that the request names, and all of them are
supported. -/
def Stores (b : Build) (q : CreateSpaceRequest) (w : Machine) : Prop :=
  ∃ space, w.storage.space q.index = some space ∧
    (∀ c < 32, space.hasControl c = true ↔ c ∈ q.controls) ∧
      ∀ c ∈ q.controls, c ∈ b.supportedControls

/-- What is left to do once the index is entered. -/
def createEntered (b : Build) (q : CreateSpaceRequest) : Prog Result := do
  if !(← allocateIf (wantsAuthorization b (controlMask q.controls))) then return .internalError
  if !(← allocate) then return .internalError
  createSpaceWrites q.index (newSpace b q)

/-- A request that passes, to an initialized manager. -/
lemma createSpace_passes {Q : Result → Machine → Prop} (hinit : w.mgr.initialized = true)
    (hpasses : Passes b q w.mgr) : wp (createSpace b q) Q C w ↔
      wp (createEntered b q) Q C { w with mgr := w.mgr.push q.index } := by
  rw [createSpace, wp_bind, initializeManager]
  simp only [wp_bind, wp_manager, hinit, if_true, wp_pure, Bool.not_true, Bool.false_eq_true,
    if_false, hpasses.1, hpasses.2, wp_setManager, createEntered]

/-- A request that does not leaves everything as it was. -/
lemma createSpace_refused (hinit : w.mgr.initialized = true) (hnot : ¬ Passes b q w.mgr) :
    ∃ result ≠ .success, ∀ Q, wp (createSpace b q) Q C w ↔ Q result w := by
  simp only [createSpace, wp_bind, initializeManager, wp_manager, hinit, if_true, wp_pure,
    Bool.not_true, Bool.false_eq_true, if_false]
  cases hdisabled : w.mgr.disableCreate with
  | true => exact ⟨.operationDisabled, by simp, fun Q => .rfl⟩
  | false =>
    cases hcheck : checkCreate b w.mgr q with
    | none => exact absurd ⟨hdisabled, hcheck⟩ hnot
    | some result =>
      refine ⟨result, ?_, fun Q => .rfl⟩
      rintro rfl
      exact checkCreate_ne_success _ _ hcheck

lemma wp_allocate_iff {Q : Bool → Machine → Prop} : wp allocate Q (fun _ => True) w ↔
    (outcome w .allocate ≠ .crash →
      Q (outcome w .allocate = .served) (w.drew .allocate)) := by
  unfold allocate call
  simp only [wp_bind, CrashProg.wp_get, CrashProg.wp_modify]
  split <;> simp_all

lemma refuses_zero (outcomes : List Outcome) : refuses outcomes 0 = false := by
  cases outcomes with
  | nil => rfl
  | cons o outcomes => cases o <;> rfl

/-- An allocation whose refusal must not be reported. -/
lemma wp_allocate_refuses {k : Prog Result} {Q : Result → Machine → Prop} {n : Nat}
    (hQ : ¬ Q .internalError (w.drew .allocate))
    (hk : wp k Q (fun _ => True) (w.drew .allocate) ↔
      refuses ((w.drew .allocate).faults .allocate) n = false) :
    wp allocate (fun ok => wp (if !ok then pure .internalError else k) Q fun _ => True)
      (fun _ => True) w ↔ refuses (w.faults .allocate) (n + 1) = false := by
  have hdrew : (w.drew .allocate).faults .allocate = (w.faults .allocate).tail := rfl
  rw [hdrew] at hk
  rw [wp_allocate_iff, outcome]
  cases hfaults : w.faults .allocate with
  | nil =>
    rw [hfaults] at hk
    cases n <;> simpa [refuses] using hk
  | cons o outcomes =>
    rw [hfaults] at hk
    cases o with
    | served => simpa [refuses] using hk
    | crash => simp [refuses]
    | notFound | storageError => simpa [refuses] using hQ

/-- Once the index is entered, it stays in the list exactly if memory is refused. -/
lemma createEntered_failed {m : NvramManager} (hm : w.mgr = m.push q.index) :
    wp (createEntered b q) (fun result w' => result ≠ .success → w'.mgr.spaces = m.spaces)
      (fun _ => True) w ↔ refuses (w.faults .allocate) (ownAllocations b q) = false := by
  have hstays (w' : Machine) (hw : w'.mgr = w.mgr) :
      ¬ (Result.internalError ≠ .success → w'.mgr.spaces = m.spaces) := by
    simp [hw, hm, push]
  have hwrites (w' : Machine) (hw : w'.mgr = w.mgr) :
      wp (createSpaceWrites q.index (newSpace b q))
        (fun result w' => result ≠ .success → w'.mgr.spaces = m.spaces) (fun _ => True) w' :=
    wp_mono (createSpaceWrites_atomic _ (hw.trans hm))
      (fun _ _ h hne => congrArg spaces (h.1 hne)) fun _ h => h
  have hcontents (w' : Machine) (hw : w'.mgr = w.mgr) :
      wp (allocate >>= fun ok => if !ok then pure .internalError else
        createSpaceWrites q.index (newSpace b q))
        (fun result w' => result ≠ .success → w'.mgr.spaces = m.spaces) (fun _ => True) w' ↔
        refuses (w'.faults .allocate) 1 = false := by
    rw [wp_bind]
    exact wp_allocate_refuses (hstays _ hw) (iff_of_true (hwrites _ hw) (refuses_zero _))
  unfold createEntered ownAllocations
  rw [wp_bind]
  cases wantsAuthorization b (controlMask q.controls) with
  | false =>
    simp only [allocateIf, Bool.false_eq_true, if_false, wp_pure, Bool.not_true]
    exact hcontents w rfl
  | true => exact wp_allocate_refuses (hstays _ rfl) (hcontents _ rfl)

/-- A request that succeeds has stored its space. -/
lemma createEntered_stored : wp (createEntered b q) (fun result w' => result = .success →
    w'.storage.space q.index = some (newSpace b q)) (fun _ => True) w := by
  have hwrites (w' : Machine) : wp (createSpaceWrites q.index (newSpace b q))
      (fun result w' => result = .success → w'.storage.space q.index = some (newSpace b q))
      (fun _ => True) w' := by
    unfold createSpaceWrites
    rw [wp_bind]
    refine writeHeader_wp (fun _ _ => trivial) (fun w1 _ _ _ _ => ?_) fun w1 _ _ _ => ?_
    · simp only [wp_bind, writeSpaceData]
      exact wp_store trivial (by simp) (by simp) (by simp)
    · simp
  have hcontents (w' : Machine) : wp (allocate >>= fun ok => if !ok then pure .internalError else
      createSpaceWrites q.index (newSpace b q)) (fun result w' => result = .success →
      w'.storage.space q.index = some (newSpace b q)) (fun _ => True) w' := by
    rw [wp_bind]
    refine wp_allocate trivial fun ok => ?_
    cases ok with
    | false => simp
    | true => exact hwrites _
  unfold createEntered
  rw [wp_bind]
  refine wp_allocateIf trivial (hcontents _) fun ok => ?_
  cases ok with
  | false => simp
  | true => exact hcontents _

lemma wp_call_served {c : Call} {Q : Outcome → Machine → Prop} (hnone : w.faults = Faults.none) :
    wp (call c) Q C w ↔ Q .served w := by
  have hdrew : w.drew c = w := by
    obtain ⟨mgr, storage, faults⟩ := w
    obtain rfl : faults = Faults.none := hnone
    simp only [Machine.drew, Faults.none, List.tail_nil, ite_self]
    rfl
  have hserved : outcome w c = .served := by simp [outcome, hnone, Faults.none]
  simp [call, hserved, hdrew]

/-- If nothing fails, the request succeeds. -/
lemma createEntered_served {Q : Result → Machine → Prop} (hnone : w.faults = Faults.none)
    (h : wp (createEntered b q) Q C w) : ∃ w', Q .success w' := by
  have hmemory : ∀ {Q : Bool → Machine → Prop}, wp allocate Q C w ↔ Q true w := by
    simp [allocate, wp_call_served hnone]
  have hwrites : wp (createSpaceWrites q.index (newSpace b q)) Q C w := by
    unfold createEntered at h
    rw [wp_bind] at h
    revert h
    cases wantsAuthorization b (controlMask q.controls) <;> simp [allocateIf, hmemory]
  simp only [createSpaceWrites, writeHeader, wp_bind, wp_manager, hmemory, storeHeader, store]
    at hwrites
  simp [setStorage, writeSpaceData, storeSpace, store, wp_call_served, hnone] at hwrites
  exact ⟨_, hwrites⟩

/-- A space of 32 bytes for anyone who knows the authorization value. -/
def authorizedSpace (index : UInt32) (controls : List UInt32) : CreateSpaceRequest where
  index := index
  size := 32
  controls := controls
  authorizationValue := [1]

end Nvram
