import AlpsSystem.Nvram.Durability

/-!
# Locks of the NVRAM manager

A persistent write lock is a flag in the stored state of a space, a lock until the
next boot is a flag of its entry in `spaces_`, which deletions of other spaces move
about, and the end of space creation is a flag of the header.  Here no storage call
reports an error; allocations may fail, and the device may crash at any call.

* `locks_permanent` — what each of them refuses, in every later state of a run.
-/

namespace Nvram

open Runs (EachStep foldSteps_inv eachStep_of_forall)
open CrashProg (wp wp_bind wp_pure wp_ite wp_mono)

open List

/-- No storage call reports an error; an allocation may fail, and a call may crash. -/
def Faults.Errorless (faults : Faults) : Prop :=
  ∀ c, .notFound ∉ faults c ∧ (c ≠ .allocate → .storageError ∉ faults c)

/-- No storage call of the event reports an error, and it is no `WipeStorage`. -/
def Event.Regular : Event → Prop
  | .reboot => True
  | .command req faults => req ≠ .wipeStorage ∧ faults.Errorless

variable {e : Event} {faults : Faults} {req : Request} {s s₀ : NvramSpace} {i : UInt32} {b : Build}
  {w : World}

lemma Event.Regular.faithful (h : e.Regular) : e.Faithful := by
  cases e with
  | reboot => trivial
  | command req faults => exact fun c => (h.2 c).1

open Event

lemma Event.Regular.deletes
    (h : (command req faults).Regular) : .storageError ∉ faults .deleteSpace :=
  (h.2 .deleteSpace).2 (by decide)

lemma Event.Regular.deletionFails (h : e.Regular) (i : UInt32) : e.deletionFails i = false := by
  cases e with
  | reboot => rfl
  | command req faults =>
    have hdel := h.deletes
    cases req <;> simp [deletionFails, hdel]

/-- Such an event does not break the recovery off. -/
lemma Event.Regular.breaksOff (h : e.Regular) (w : World) : breaksOff w e = false := by
  cases e with
  | reboot => rfl
  | command req faults =>
    have hhead : (faults .deleteSpace).headD .served ≠ .storageError := by
      intro ho
      cases hl : faults .deleteSpace with
      | nil => rw [hl] at ho; cases ho
      | cons o os =>
        rw [hl] at ho
        exact h.deletes (by rw [hl, ← ho]; exact mem_cons_self)
    unfold Nvram.breaksOff
    dsimp only
    split
    · rfl
    · split
      · rfl
      · rw [decide_eq_false hhead, Bool.and_false]

/-! ## Persistent write locks -/

/-- The stored state of a space that is locked for good. -/
def NvramSpace.writeLockedForGood (b : Build) (s : NvramSpace) : Bool :=
  s.hasControl b.controlPersistentWriteLock && s.hasFlag NvramSpace.kFlagWriteLocked

open NvramSpace

lemma setFlag_hasFlag (s : NvramSpace) :
    (s.setFlag kFlagWriteLocked).hasFlag kFlagWriteLocked := by
  have hand : (s.flags ||| 1) &&& 1 = (1 : UInt32) := by
    apply UInt32.eq_of_toBitVec_eq
    ext k
    simp only [UInt32.toBitVec_and, UInt32.toBitVec_or, BitVec.getElem_and, BitVec.getElem_or]
    grind
  unfold hasFlag setFlag kFlagWriteLocked
  rw [hand]
  decide

/-- The requests that a write lock on space `i` stands against. -/
def Request.changes (i : UInt32) : Request → Bool
  | .deleteSpace q => q.index = i
  | req => req.updates i

section

variable {b : Build} {faults : Faults} {m m' : NvramManager} {st st' : Storage} {i : UInt32}
  {s : NvramSpace}

open SpaceRecord

/-- A locked space cannot be opened for writing. -/
lemma Opens.not_writable {r : SpaceRecord} {index : UInt32} {auth : Blob}
    (hopen : Opens m st index r) (hs : st.space index = some s)
    (hlock : s.writeLockedForGood b) : r.checkWriteAccess b auth ≠ .success := by
  obtain rfl : s = r.persistent := Option.some.inj (hs.symm.trans hopen.stored)
  unfold writeLockedForGood at hlock
  unfold checkWriteAccess
  rw [if_pos hlock]
  decide

variable {req : Request}

open Request

/-- What an update or a deletion that succeeds has found: a space open for writing, or
no space. -/
lemma Effect.writable (he : Effect b faults m st req .success m' st') (hreq : req.changes i) :
    (∃ r auth, Opens m st i r ∧ r.checkWriteAccess b auth = .success) ∨ i ∉ m.indices := by
  cases he with
  | refused _ _ hne => exact absurd rfl hne
  | query _ _ hq => cases req <;> simp_all [changes, updates, isQuery]
  | create q _ hc =>
    obtain rfl : q.index = i := by simpa [changes, updates] using hreq
    exact .inr (not_mem_of_checkCreate hc).1
  | delete q r hopen ha | deleteMissed q r hopen ha =>
    obtain rfl : q.index = i := by simpa [changes] using hreq
    exact .inl ⟨r, _, hopen, ha⟩
  | write q r _ hopen ha | lockWrite q r hopen ha | lockWriteBoot q r hopen ha =>
    obtain rfl : q.index = i := by simpa [changes, updates] using hreq
    exact .inl ⟨r, _, hopen, ha⟩
  | disableCreate | lockReadBoot | wipe | disableWipe => cases hreq

/-- Nothing changes a space that is locked for good. -/
lemma Effect.refuses_locked {r : Result} (h : Durable i s ⟨m, st⟩)
    (hinit : m.initialized) (hlock : s.writeLockedForGood b)
    (hreq : req.changes i) (he : Effect b faults m st req r m' st') : r ≠ .success := by
  rintro rfl
  rcases he.writable hreq with ⟨r, auth, hopen, ha⟩ | hnot
  · exact hopen.not_writable h.stored hlock ha
  · exact hnot (h.manager hinit)

lemma Request.changes_of_updates (h : req.updates i) : req.changes i := by
  cases req <;> simp_all [changes, updates]

lemma Torn.durable_locked (h : Durable i s ⟨m, st⟩)
    (hinit : m.initialized) (hlock : s.writeLockedForGood b)
    (hwipe : req ≠ .wipeStorage) (ht : Torn b m st req st') : Durable i s ⟨{}, st'⟩ := by
  cases ht with
  | same => exact ⟨h.stored, h.header, nofun⟩
  | create q hd hc => exact Torn.durable h hinit hwipe nofun (.create q hd hc)
  | delete q r hopen ha =>
    refine Torn.durable h hinit hwipe ?_ (.delete q r hopen ha)
    rintro q' hq rfl
    obtain rfl : q = q' := deleteSpace.inj hq
    exact hopen.not_writable h.stored hlock ha
  | wipe => exact absurd rfl hwipe

end

/-- **One event keeps a space that is locked for good.** -/
theorem step_durable_locked (b : Build)
    (hlock : s.writeLockedForGood b) (w : World) (e : Event) (h : Durable i s w)
    (hreg : e.Regular) : Durable i s (w.step b e) := by
  cases e with
  | reboot => exact ⟨h.stored, h.header, nofun⟩
  | command req faults =>
    have hf : ∀ c, .notFound ∉ faults c := hreg.faithful
    refine w.step_command h (·.durable h hf) (·.durable h hf) (fun _ h1 hinit heff => ?_) ?_
    · have hrefuse := fun hc => heff.refuses_locked h1 hinit hlock hc
      refine heff.durable h1 hinit hf ?_ hreg.1 ?_
      · exact fun hup => hrefuse (Request.changes_of_updates hup)
      · rintro q rfl hq
        exact ⟨hrefuse (by simp [Request.changes, hq]), hreg.deletes⟩
    · exact fun _ h1 hinit ht => ht.durable_locked h1 hinit hlock hreg.1

open World

/-- No update and no deletion of a space that is locked for good succeeds. -/
lemma Durable.refuses (h : Durable i s w) (hlock : s.writeLockedForGood b)
    (hreg : (command req faults).Regular) (hreq : req.changes i) :
    w.result b (.command req faults) ≠ some .success := by
  intro hres
  obtain ⟨m1, st1, m, st, -, hrec, heff⟩ := ran_of_success hres
  exact heff.refuses_locked (hrec.durable h hreg.faithful) hrec.initialized hlock hreq rfl

/-! ## Disabled creation -/

/-- The header says that creation is disabled, and so does an initialized manager. -/
structure CreateDisabled (w : World) : Prop where
  header : ∃ h, w.storage.header = some h ∧ h.hasFlag NvramHeader.kFlagDisableCreate = true
  manager : w.mgr.initialized = true → w.mgr.disableCreate = true

section

variable {b : Build} {faults : Faults} {m m' : NvramManager} {st st' : Storage}

lemma Recovery.createDisabled {ok : Bool} (h : CreateDisabled w)
    (hf : ∀ c, .notFound ∉ faults c) (hr : Recovery faults w.mgr w.storage ok m' st') :
    CreateDisabled ⟨m', st'⟩ := by
  obtain ⟨hd, hhd, hflag⟩ := h.header
  cases hr with
  | already | refused => exact h
  | blank _ hnone => exact absurd hhd (header_ne_of_blank hnone hf)
  | aborted header hinit =>
    exact ⟨h.header, fun hne => absurd hne (recovered_not_initialized hinit)⟩
  | done header st1 _ hrec hclean =>
    rw [hrec.loaded] at hhd
    cases hhd
    exact ⟨⟨_, hclean.header.trans hrec.loaded, hflag⟩, fun _ => hflag⟩
  | rewritten header st1 _ hrec hclean =>
    rw [hrec.loaded] at hhd
    cases hhd
    exact ⟨⟨_, rfl, headerOf_disableCreate none hflag⟩, fun _ => hflag⟩

lemma Effect.createDisabled {r : Result} (h : CreateDisabled ⟨m, st⟩)
    (hinit : m.initialized) (he : Effect b faults m st req r m' st') :
    CreateDisabled ⟨m', st'⟩ := by
  have hdis : m.disableCreate := h.manager hinit
  have hcreate : m.disableCreate ≠ false := by rw [hdis]; decide
  have hremove : ∀ k, (m.removeAt k).disableCreate := fun k => by simpa using hdis
  cases he with
  | refused | query => exact h
  | createUnbacked _ hd | createHalf _ hd | create _ hd => exact absurd hd hcreate
  | deleteUndone _ r => exact ⟨h.header, fun _ => hremove r.arrayIndex⟩
  | deleteHalf _ r | delete _ r | deleteMissed _ r =>
    exact ⟨⟨_, rfl, headerOf_disableCreate _ (hremove _)⟩, fun _ => hremove r.arrayIndex⟩
  | disableCreate => exact ⟨⟨_, rfl, headerOf_disableCreate none rfl⟩, fun _ => rfl⟩
  | write | lockWrite | lockWriteBoot | lockReadBoot | wipeHalf | wipeUnwritten | disableWipe =>
    exact ⟨h.header, fun _ => hdis⟩
  | wipe =>
    exact ⟨⟨_, rfl, headerOf_disableCreate none hdis⟩, fun _ => hdis⟩

lemma Torn.createDisabled (h : CreateDisabled ⟨m, st⟩)
    (hinit : m.initialized) (ht : Torn b m st req st') : CreateDisabled ⟨{}, st'⟩ := by
  have hdis : m.disableCreate := h.manager hinit
  cases ht with
  | same | wipe => exact ⟨h.header, nofun⟩
  | create _ hd => exact absurd hd (by rw [hdis]; decide)
  | delete _ r =>
    exact ⟨⟨_, rfl, headerOf_disableCreate _ (by simpa using hdis)⟩, nofun⟩

lemma RecoveryTorn.createDisabled (h : CreateDisabled ⟨m, st⟩)
    (ht : RecoveryTorn faults m st st') : CreateDisabled ⟨{}, st'⟩ := by
  cases ht with
  | same => exact ⟨h.header, nofun⟩
  | cleaned header _ _ _ hclean =>
    obtain ⟨hd, hhd, hflag⟩ := h.header
    exact ⟨⟨hd, hclean.header.trans hhd, hflag⟩, nofun⟩

end

/-- **One event keeps creation disabled.** -/
theorem step_createDisabled (b : Build) (w : World) (e : Event) (h : CreateDisabled w)
    (hf : e.Faithful) : CreateDisabled (w.step b e) := by
  cases e with
  | reboot => exact ⟨h.header, nofun⟩
  | command req faults =>
    refine w.step_command h (·.createDisabled h hf) (·.createDisabled h) ?_ ?_
    · exact fun _ h1 hinit heff => heff.createDisabled h1 hinit
    · exact fun _ h1 hinit ht => ht.createDisabled h1 hinit

/-- A successful `DisableCreate` disables creation. -/
lemma step_disablesCreate (hres : w.result b (.command .disableCreate faults) = some .success) :
    CreateDisabled (w.step b (.command .disableCreate faults)) := by
  obtain ⟨m1, st1, m, st, hw, hrec, heff⟩ := ran_of_success hres
  rw [hw]
  cases heff with
  | refused _ _ hne => exact absurd rfl hne
  | query _ _ hq => cases hq
  | disableCreate => exact ⟨⟨_, rfl, headerOf_disableCreate none rfl⟩, fun _ => rfl⟩

/-- No creation succeeds where it is disabled. -/
lemma CreateDisabled.refuses {q : CreateSpaceRequest}
    (h : CreateDisabled w) (hf : (command (.createSpace q) faults).Faithful) :
    w.result b (.command (.createSpace q) faults) ≠ some .success := by
  intro hres
  obtain ⟨m1, st1, m, st, -, hrec, heff⟩ := ran_of_success hres
  have hdis := (hrec.createDisabled h hf).manager hrec.initialized
  cases heff with
  | refused _ _ hne => exact hne rfl
  | query _ _ hq => cases hq
  | create _ hd =>
    rw [show m1.disableCreate from hdis] at hd
    cases hd

/-! ## Locks until the next boot -/

/-- The two locks that last until the next boot. -/
inductive BootLock where
  | write
  | read
  deriving DecidableEq, Repr

namespace BootLock

/-- The entry has the lock. -/
def heldBy : BootLock → SpaceListEntry → Bool
  | .write, e => e.writeLocked
  | .read, e => e.readLocked

/-- The control a space needs for the lock. -/
def control (b : Build) : BootLock → UInt32
  | .write => b.controlBootWriteLock
  | .read => b.controlBootReadLock

/-- The command that sets the lock. -/
def request : BootLock → SpaceRequest → Request
  | .write, q => .lockSpaceWrite q
  | .read, q => .lockSpaceRead q

/-- The requests the lock on space `i` stands against. -/
def forbids (i : UInt32) : BootLock → Request → Bool
  | .write, .writeSpace q => q.index = i
  | .write, .lockSpaceWrite q => q.index = i
  | .write, .deleteSpace q => q.index = i
  | .read, .readSpace q => q.index = i
  | .read, .lockSpaceRead q => q.index = i
  | _, _ => false

/-- The event ends the lock on space `i`: the device restarts, or the space, which is
locked for reading only, is deleted. -/
def lapses (b : Build) (i : UInt32) (lock : BootLock) (w : World) (e : Event) : Bool :=
  match e with
  | .command (.deleteSpace q) _ =>
    w.result b e = none || (lock = .read && q.index = i && w.result b e = some .success)
  | _ => w.result b e = none

end BootLock

/-- Space `i` is under the lock; its controls are those of `s₀`. -/
structure BootLocked (lock : BootLock) (i : UInt32) (s₀ : NvramSpace) (w : World) : Prop where
  initialized : w.mgr.initialized = true
  listed : i ∈ w.mgr.indices
  held : ∀ e ∈ w.mgr.spaces, e.index = i → lock.heldBy e = true
  stored : ∃ s, w.storage.space i = some s ∧ s.controls = s₀.controls

/-- The lock is looked at for a space with the controls of `s`: a persistent write lock
takes the place of the other one. -/
def BootLock.effective (b : Build) (lock : BootLock) (s : NvramSpace) : Bool :=
  s.hasControl (lock.control b) &&
    !(lock = .write && s.hasControl b.controlPersistentWriteLock)

section

variable {b : Build} {faults : Faults} {m m' : NvramManager} {st st' : Storage} {i : UInt32}
  {s₀ : NvramSpace} {lock : BootLock} {k : Nat} {f : SpaceListEntry → SpaceListEntry}
  {r : SpaceRecord} {auth : Blob}

/-- Setting a lock takes none away. -/
lemma heldBy_updateAt
    (hindex : ∀ e, (f e).index = e.index) (hf : ∀ e, lock.heldBy e → lock.heldBy (f e))
    (h : ∀ e ∈ m.spaces, e.index = i → lock.heldBy e) :
    ∀ e ∈ (m.updateAt k f).spaces, e.index = i → lock.heldBy e := by
  intro e he hi
  obtain ⟨j, hj⟩ := List.getElem?_of_mem he
  have hmod : (m.spaces.modify k f)[j]? = some e := hj
  rw [List.getElem?_modify] at hmod
  obtain ⟨e0, he0, rfl⟩ := Option.map_eq_some_iff.mp hmod
  have hmem : e0 ∈ m.spaces := mem_of_getElem? he0
  by_cases hk : k = j
  · simp only [hk] at hi ⊢
    exact hf e0 (h e0 hmem (by rw [← hindex e0]; exact hi))
  · simp only [hk] at hi ⊢
    exact h e0 hmem hi

/-- The lock of the only entry with its index. -/
lemma heldBy_of_updateAt {e0 : SpaceListEntry}
    (hnodup : m.indices.Nodup) (he0 : m.spaces[k]? = some e0)
    (hf : ∀ e, lock.heldBy (f e)) :
    ∀ e ∈ (m.updateAt k f).spaces, e.index = e0.index → lock.heldBy e := by
  intro e he hi
  obtain ⟨j, hj⟩ := List.getElem?_of_mem he
  have hmod : (m.spaces.modify k f)[j]? = some e := hj
  rw [List.getElem?_modify] at hmod
  obtain ⟨e1, he1, rfl⟩ := Option.map_eq_some_iff.mp hmod
  by_cases hk : k = j
  · simp only [hk]
    exact hf e1
  · -- two positions with one index
    simp only [hk] at hi ⊢
    have hkl : k < m.indices.length := by
      rw [indices_length]
      exact (List.getElem?_eq_some_iff.mp he0).1
    refine absurd ((List.getElem?_inj hkl hnodup).mp ?_) hk
    simp only [NvramManager.indices, List.getElem?_map, he0, he1]
    exact congrArg some hi.symm

open Storage

/-- A command on an initialized manager keeps the lock, unless it deletes the space. -/
lemma Effect.bootLocked {r : Result} (h : BootLocked lock i s₀ ⟨m, st⟩)
    (hf : ∀ c, .notFound ∉ faults c) (hwipe : req ≠ .wipeStorage)
    (herr : .storageError ∉ faults .deleteSpace)
    (hdel : ∀ q, req = .deleteSpace q → q.index = i → r ≠ .success)
    (he : Effect b faults m st req r m' st') : BootLocked lock i s₀ ⟨m', st'⟩ := by
  obtain ⟨hinit, hin, hheld, s, hs, hcontrols⟩ := h
  have hpush : ∀ q, checkCreate b m q = none → i ≠ q.index ∧ i ∈ (m.push q.index).indices ∧
      ∀ e ∈ (m.push q.index).spaces, e.index = i → lock.heldBy e := by
    intro q hc
    have hne : i ≠ q.index := by
      rintro rfl
      exact (not_mem_of_checkCreate hc).1 hin
    refine ⟨hne, mem_push hin _, fun e he hi => ?_⟩
    rcases mem_append.mp (show e ∈ m.spaces ++ [_] from he) with he | he
    · exact hheld e he hi
    · rw [mem_singleton.mp he] at hi
      exact absurd hi.symm hne
  -- putting the entry back at the end
  have hreadd : ∀ (k : Nat) (e : SpaceListEntry), m.spaces[k]? = some e →
      ∀ e' ∈ ((m.removeAt k).readd e).spaces, e'.index = i → lock.heldBy e' := by
    intro k e hk e' he' hi
    have hperm := (perm_append_singleton e (m.removeAt k).spaces).trans (removeAt_spaces_perm hk)
    exact hheld e' (hperm.mem_iff.mp he') hi
  -- setting a lock of an entry
  have hlock : ∀ (k : Nat) (f : SpaceListEntry → SpaceListEntry), (∀ e, (f e).index = e.index) →
      (∀ e, lock.heldBy e → lock.heldBy (f e)) →
      BootLocked lock i s₀ ⟨m.updateAt k f, st⟩ := by
    intro k f hindex hkeeps
    exact ⟨hinit, mem_updateAt hin hindex, heldBy_updateAt hindex hkeeps hheld, s, hs, hcontrols⟩
  -- writing a space keeps its controls
  have hwrite : ∀ (r : SpaceRecord) (s' : NvramSpace) (index : UInt32), Opens m st index r →
      s'.controls = r.persistent.controls →
      ∃ s'', (st.setSpace index (some s')).space i = some s'' ∧ s''.controls = s₀.controls := by
    intro r s' index hopen hc
    by_cases hi : i = index
    · subst hi
      rw [hopen.stored] at hs
      exact ⟨s', setSpace_self _ _ _, by rw [hc, Option.some.inj hs, hcontrols]⟩
    · exact ⟨s, (setSpace_other _ _ hi).trans hs, hcontrols⟩
  cases he with
  | refused | query | createHalf | disableCreate | disableWipe =>
    exact ⟨hinit, hin, hheld, s, hs, hcontrols⟩
  | createUnbacked q _ hc => exact ⟨hinit, (hpush q hc).2.1, (hpush q hc).2.2, s, hs, hcontrols⟩
  | create q _ hc =>
    obtain ⟨hne, hin', hheld'⟩ := hpush q hc
    exact ⟨hinit, hin', hheld', s, (setSpace_other _ _ hne).trans hs, hcontrols⟩
  | deleteUndone q r hopen =>
    exact ⟨by simpa using hinit, (readd_removeAt_perm hopen.entry).mem_iff.mpr hin,
      hreadd _ _ hopen.entry, s, hs, hcontrols⟩
  | deleteHalf _ _ _ _ hn => exact absurd hn herr
  | delete q r hopen =>
    have hne : i ≠ q.index := fun hq => hdel q rfl hq.symm rfl
    refine ⟨by simpa using hinit, mem_removeAt hopen.entry hin (by rwa [hopen.transient_index]),
      ?_, s, (setSpace_other _ _ hne).trans hs, hcontrols⟩
    intro e he hi
    exact hheld e ((removeAt_spaces_perm hopen.entry).mem_iff.mp (.tail _ he)) hi
  | deleteMissed _ _ _ _ hn => exact absurd hn (hf _)
  | write _ r _ hopen | lockWrite _ r hopen => exact ⟨hinit, hin, hheld, hwrite r _ _ hopen rfl⟩
  | lockWriteBoot q r =>
    refine hlock _ _ (fun _ => rfl) fun e he => ?_
    cases lock with
    | write => rfl
    | read => exact he
  | lockReadBoot q r =>
    refine hlock _ _ (fun _ => rfl) fun e he => ?_
    cases lock with
    | write => exact he
    | read => rfl
  | wipeHalf | wipeUnwritten | wipe => exact absurd rfl hwipe

/-- The record of a locked space has the lock, and the controls the space had. -/
lemma BootLocked.opened (h : BootLocked lock i s₀ ⟨m, st⟩) (hopen : Opens m st i r) :
    lock.heldBy r.transient ∧ ∀ c, r.persistent.hasControl c = s₀.hasControl c := by
  obtain ⟨-, -, hheld, s, hs, hcontrols⟩ := h
  obtain rfl : s = r.persistent := Option.some.inj (hs.symm.trans hopen.stored)
  exact ⟨hheld _ (mem_of_getElem? hopen.entry) hopen.transient_index,
    fun control => by rw [hasControl, hcontrols]; rfl⟩

open BootLock

/-- A locked space cannot be opened for what the lock stands against. -/
lemma Opens.not_writable_of_boot (hopen : Opens m st i r)
    (h : BootLocked .write i s₀ ⟨m, st⟩) (heff : write.effective b s₀) :
    r.checkWriteAccess b auth ≠ .success := by
  obtain ⟨hlocked, hcontrols⟩ := h.opened hopen
  simp [effective, BootLock.control, BootLock.heldBy] at heff hlocked
  simp [SpaceRecord.checkWriteAccess, hcontrols, heff, hlocked]

lemma Opens.not_readable_of_boot (hopen : Opens m st i r)
    (h : BootLocked .read i s₀ ⟨m, st⟩) (heff : BootLock.read.effective b s₀) :
    r.checkReadAccess b auth ≠ .success := by
  obtain ⟨hlocked, hcontrols⟩ := h.opened hopen
  simp [BootLock.effective, BootLock.control, heldBy] at heff hlocked
  simp [SpaceRecord.checkReadAccess, hcontrols, heff, hlocked]

/-- A `ReadSpace` that succeeds has found a space open for reading. -/
lemma readSpace_readable_wp (w : Machine) (q : SpaceRequest) :
    wp (readSpace b q)
      (fun a _ => a.result = .success → ∃ m1 st1 r, Recovery w.faults w.mgr w.storage true m1 st1 ∧
        Opens m1 st1 q.index r ∧ r.checkReadAccess b q.authorizationValue = .success)
      (fun _ => True) w := by
  unfold readSpace
  rw [wp_bind]
  refine wp_mono (initializeManager_wp w) ?_ fun _ _ => trivial
  rintro ok w1 ⟨hrec, -⟩
  cases ok with
  | false => exact Result.noConfusion
  | true =>
    simp only [Bool.not_true, Bool.false_eq_true, if_false, wp_bind]
    refine loadSpaceRecord_wp (fun _ _ => trivial) ?_ ?_
    · exact fun r w2 hne _ _ h => absurd h hne
    · intro r w2 hopen _ _ _
      dsimp only
      split
      · rename_i ha
        rw [wp_bind]
        refine wp_allocate trivial ?_
        intro ok
        split
        · exact fun h => Result.noConfusion h
        · exact fun _ => ⟨_, _, r, hrec, hopen, ha⟩
      · rename_i hne
        exact fun h => absurd h hne

end

/-- The recovery has nothing to do for an initialized manager. -/
lemma Recovery.of_initialized {m m' : NvramManager} {st st' : Storage} {ok : Bool}
    (hr : Recovery faults m st ok m' st') (hinit : m.initialized) : m' = m ∧ st' = st := by
  cases hr with
  | already => exact ⟨rfl, rfl⟩
  | refused h | blank h | aborted _ h | done _ _ h | rewritten _ _ h => rw [hinit] at h; cases h

open BootLock

/-- What the lock stands against does not succeed. -/
lemma BootLocked.refuses (h : BootLocked lock i s₀ w)
    (heff : lock.effective b s₀) (hreq : lock.forbids i req) :
    w.result b (.command req faults) ≠ some .success := by
  intro hres
  obtain ⟨m1, st1, m, st, -, hrec, he⟩ := ran_of_success hres
  obtain ⟨rfl, rfl⟩ := hrec.of_initialized h.initialized
  cases lock with
  | write =>
    have hch : req.changes i := by
      cases req <;> simp_all [Request.changes, Request.updates, forbids]
    rcases he.writable hch with ⟨r, auth, hopen, ha⟩ | hnot
    · exact hopen.not_writable_of_boot h heff ha
    · exact hnot h.listed
  | read =>
    cases req with
    | readSpace q =>
      obtain rfl : q.index = i := by simpa [forbids] using hreq
      have hwp := readSpace_readable_wp (b := b)
        { mgr := w.mgr, storage := w.storage, faults } q
      have hread : ((readSpace b q { mgr := w.mgr, storage := w.storage, faults }).1.map
          (·.result)) = some .success := hres
      rcases hrun : readSpace b q { mgr := w.mgr, storage := w.storage, faults }
        with ⟨a, w1⟩
      rw [hrun] at hread
      obtain ⟨a, rfl, ha⟩ := Option.map_eq_some_iff.mp hread
      obtain ⟨m1, st1, r, hrec', hopen, hok⟩ := CrashProg.wp_some hwp hrun ha
      obtain ⟨rfl, rfl⟩ := hrec'.of_initialized h.initialized
      exact hopen.not_readable_of_boot h heff hok
    | lockSpaceRead q =>
      obtain rfl : q.index = i := by simpa [forbids] using hreq
      cases he with
      | refused _ _ hne => exact hne rfl
      | query _ _ hq => cases hq
      | lockReadBoot _ r hopen ha => exact hopen.not_readable_of_boot h heff ha
    | _ => cases hreq

/-- **One event keeps a lock that does not lapse with it.** -/
theorem step_bootLocked (b : Build)
    (heff : lock.effective b s₀) (w : World) (e : Event) (h : BootLocked lock i s₀ w)
    (hok : e.Regular ∧ lock.lapses b i w e = false) : BootLocked lock i s₀ (w.step b e) := by
  obtain ⟨hreg, hlapse⟩ := hok
  have hrefuse : ∀ req faults, lock.forbids i req →
      w.result b (.command req faults) ≠ some .success := fun _ _ hreq => h.refuses heff hreq
  have hstep := w.stepped b e
  unfold lapses at hlapse
  generalize hr : w.result b e = r, w.step b e = w' at hstep hlapse
  cases hstep with
  | reboot => cases hlapse
  | torn req faults st => cases req <;> simp at hlapse
  | command req faults r m st hcmd =>
    cases hcmd with
    | unknown => exact h
    | failed _ _ hrec =>
      obtain ⟨rfl, rfl⟩ := hrec.of_initialized h.initialized
      exact h
    | ran m1 st1 _ _ _ hrec he =>
      obtain ⟨rfl, rfl⟩ := hrec.of_initialized h.initialized
      refine he.bootLocked h hreg.faithful hreg.1 hreg.deletes ?_
      rintro q rfl hq rfl
      cases lock with
      | write => exact hrefuse _ _ (by simp [forbids, hq]) hr
      | read => simp [hq] at hlapse

/-- A lock command that succeeds sets the lock. -/
lemma step_bootLocks {q : SpaceRequest}
    (hbooked : Booked w) (hreg : (command (lock.request q) faults).Regular)
    (hstored : w.storage.space q.index = some s) (heff : lock.effective b s)
    (hres : w.result b (.command (lock.request q) faults) = some .success) :
    BootLocked lock q.index s (w.step b (.command (lock.request q) faults)) := by
  obtain ⟨m1, st1, m, st, hw, hrec, he⟩ := ran_of_success hres
  rw [hw]
  have hb1 := hrec.booked hbooked (hreg.breaksOff w)
  -- the recovery has not touched the space
  have hopened : ∀ r, Opens m1 st1 q.index r → r.persistent = s := by
    intro r hopen
    have hsome : (st1.space q.index).isSome := by rw [hopen.stored]; rfl
    have heq := hrec.space_eq hsome
    rw [hopen.stored, hstored] at heq
    exact Option.some.inj heq
  have hset : ∀ (r : SpaceRecord) (f : SpaceListEntry → SpaceListEntry), Opens m1 st1 q.index r →
      (∀ e, (f e).index = e.index) → (∀ e, lock.heldBy (f e)) →
      BootLocked lock q.index s ⟨m1.updateAt r.arrayIndex f, st1⟩ := by
    intro r f hopen hindex hf
    refine ⟨hrec.initialized, ?_, ?_, s, hopened r hopen ▸ hopen.stored, rfl⟩
    · rw [updateAt_indices m1 _ hindex]
      exact hopen.mem_indices
    · rw [← hopen.transient_index]
      exact heldBy_of_updateAt hb1.nodup hopen.entry hf
  cases lock with
  | write =>
    cases he with
    | refused _ _ hne => exact absurd rfl hne
    | query _ _ hq => cases hq
    | lockWrite _ r hopen _ hp =>
      rw [hopened r hopen] at hp
      simp [effective, hp] at heff
    | lockWriteBoot _ r hopen => exact hset r _ hopen (fun _ => rfl) fun _ => rfl
  | read =>
    cases he with
    | refused _ _ hne => exact absurd rfl hne
    | query _ _ hq => cases hq
    | lockReadBoot _ r hopen => exact hset r _ hopen (fun _ => rfl) fun _ => rfl

/-! ## Runs -/

lemma run_append_cons (b : Build) (before after : List Event) (e : Event) :
    run b (before ++ e :: after) = after.foldl (step b) ((run b before).step b e) := by
  unfold run
  rw [foldl_append, foldl_cons]

lemma run_booked_of_regular (b : Build) {events : List Event} (h : ∀ e ∈ events, e.Regular) :
    Booked (run b events) := by
  have hblank : Booked {} :=
    ⟨fun _ => rfl, List.nodup_nil, zero_le, fun h hh => by cases hh⟩
  exact foldSteps_inv (fun w e hw hreg => step_booked b w e hw (Event.Regular.breaksOff hreg w))
    events {} hblank (eachStep_of_forall events _ h)

section

variable {b : Build} {before after : List Event} {q : SpaceRequest} {faults : Faults}
  {s : NvramSpace}

/-- A persistent write lock leaves the space durable in its locked state. -/
lemma run_locked (hbefore : ∀ e ∈ before, e.Regular) (hafter : ∀ e ∈ after, e.Regular)
    (hreg : (command (.lockSpaceWrite q) faults).Regular)
    (hres : (run b before).result b (.command (.lockSpaceWrite q) faults) = some .success)
    (hstored : (run b before).storage.space q.index = some s)
    (hcontrol : s.hasControl b.controlPersistentWriteLock) :
    Durable q.index (s.setFlag kFlagWriteLocked)
        (run b (before ++ .command (.lockSpaceWrite q) faults :: after)) ∧
      (s.setFlag kFlagWriteLocked).writeLockedForGood b := by
  have hblank : Recorded q.index {} := ⟨⟨nofun, nofun⟩, nofun⟩
  have hrecorded : Recorded q.index (run b before) :=
    foldSteps_inv (step_recorded b) before {} hblank (eachStep_of_forall before _ fun e he =>
      ⟨(hbefore e he).faithful, (hbefore e he).deletionFails _⟩)
  obtain ⟨s', hs', hdurable⟩ := step_acknowledges b hrecorded hreg.faithful
    (by simp [Request.updates]) hres
  obtain rfl : s.setFlag kFlagWriteLocked = s' := by
    rw [hstored] at hs'
    simpa [acknowledged, hcontrol] using hs'
  have hlock : (s.setFlag kFlagWriteLocked).writeLockedForGood b := by
    unfold writeLockedForGood
    rw [setFlag_hasFlag, Bool.and_true]
    exact hcontrol
  refine ⟨?_, hlock⟩
  rw [run_append_cons]
  exact foldSteps_inv (step_durable_locked b hlock) after _ hdurable
    (eachStep_of_forall after _ hafter)

/-- A lock until the next boot refuses what it stands against until it lapses. -/
lemma run_bootLocked (hbefore : ∀ e ∈ before, e.Regular)
    (hafter : ∀ e ∈ after, e.Regular) (hreg : (command (lock.request q) faults).Regular)
    (hres : (run b before).result b (.command (lock.request q) faults) = some .success)
    (hstored : (run b before).storage.space q.index = some s)
    (heff : lock.effective b s)
    (hheld : EachStep (fun w e => lock.lapses b q.index w e = false) (step b)
      (run b (before ++ [.command (lock.request q) faults])) after) :
    BootLocked lock q.index s (run b (before ++ .command (lock.request q) faults :: after)) := by
  rw [run_append_cons] at hheld ⊢
  exact foldSteps_inv (step_bootLocked b heff) after _
    (step_bootLocks (run_booked_of_regular b hbefore) hreg hstored heff hres)
    ((eachStep_of_forall after _ hafter).and hheld)

end

/-- **Locks are permanent for their scope.** In a run without storage errors and without
`WipeStorage`:
a space locked for good keeps its contents and its place in the list;
a lock until the next boot refuses what it stands against until it lapses;
and once creation is disabled, none succeeds. -/
theorem locks_permanent (b : Build) (before after : List Event) (faults faults' : Faults)
    (hbefore : ∀ e ∈ before, e.Regular) (hafter : ∀ e ∈ after, e.Regular)
    (hfaults : faults.Errorless) (hfaults' : faults'.Errorless) :
    (∀ q s, (run b before).result b (.command (.lockSpaceWrite q) faults) = some .success →
      (run b before).storage.space q.index = some s →
      s.hasControl b.controlPersistentWriteLock = true →
      let w := run b (before ++ .command (.lockSpaceWrite q) faults :: after)
      (∃ s', w.storage.space q.index = some s' ∧ s'.contents = s.contents) ∧
        (w.mgr.initialized = true → findSpace w.mgr q.index ≠ kMaxSpaces)) ∧
    (∀ (lock : BootLock) q s,
      (run b before).result b (.command (lock.request q) faults) = some .success →
      (run b before).storage.space q.index = some s → s.hasControl (lock.control b) = true →
      EachStep (fun w e => lock.lapses b q.index w e = false) (World.step b)
        (run b (before ++ [.command (lock.request q) faults])) after →
      ∀ req, lock.forbids q.index req = true →
        (run b (before ++ .command (lock.request q) faults :: after)).result b
          (.command req faults') ≠ some .success) ∧
    ((run b before).result b (.command .disableCreate faults) = some .success →
      ∀ q, (run b (before ++ .command .disableCreate faults :: after)).result b
        (.command (.createSpace q) faults') ≠ some .success) := by
  have hreg : ∀ req, req ≠ .wipeStorage → (command req faults).Regular :=
    fun _ hne => ⟨hne, hfaults⟩
  have hreg' : ∀ req, req ≠ .wipeStorage → (command req faults').Regular :=
    fun _ hne => ⟨hne, hfaults'⟩
  refine ⟨?_, ?_, ?_⟩
  · intro q s hres hstored hcontrol
    obtain ⟨hdurable, -⟩ :=
      run_locked hbefore hafter (hreg _ Request.noConfusion) hres hstored hcontrol
    refine ⟨⟨_, hdurable.stored, rfl⟩, fun hinit => ?_⟩
    have hall : ∀ e ∈ before ++ .command (.lockSpaceWrite q) faults :: after, e.Regular := by
      intro e he
      rcases mem_append.mp he with he | he
      · exact hbefore e he
      rcases mem_cons.mp he with rfl | he
      · exact hreg _ Request.noConfusion
      · exact hafter e he
    exact findSpace_ne_max (hdurable.manager hinit) (run_booked_of_regular b hall).bounded
  · intro lock q s hres hstored hcontrol hheld req hreq
    have hwipe : req ≠ .wipeStorage := by
      rintro rfl
      cases lock <;> cases hreq
    have hset : lock.request q ≠ .wipeStorage := by cases lock <;> simp [request]
    by_cases heff : lock.effective b s
    · exact (run_bootLocked hbefore hafter (hreg _ hset) hres hstored heff hheld).refuses heff hreq
    · -- the space has a persistent write lock in place of this one
      obtain ⟨rfl, hpersistent⟩ : lock = .write ∧ s.hasControl b.controlPersistentWriteLock := by
        simpa [effective, hcontrol] using heff
      obtain ⟨hdurable, hlock⟩ :=
        run_locked hbefore hafter (hreg (.lockSpaceWrite q) Request.noConfusion) hres hstored
          hpersistent
      refine hdurable.refuses hlock (hreg' _ hwipe) ?_
      cases req <;> simp_all [Request.changes, Request.updates, forbids]
  · intro hres q
    refine CreateDisabled.refuses ?_ (hreg' (.createSpace q) Request.noConfusion).faithful
    rw [run_append_cons]
    exact foldSteps_inv (step_createDisabled b) after _ (step_disablesCreate hres)
      (eachStep_of_forall after _ fun e he => (hafter e he).faithful)

/-- Create a space of one byte with one control. -/
def sampleControlled (index control : UInt32) : Event :=
  .command (.createSpace { index, size := 1, controls := [control], authorizationValue := [] })
    Faults.none

/-- Three spaces, one with each lock control. -/
def sampleControlledSpaces : List Event :=
  [sampleControlled 1 1, sampleControlled 2 2, sampleControlled 3 3]

/-- What follows a lock: a deletion that moves the entries, and a command that runs out of
memory. -/
def sampleTraffic : List Event :=
  [.command (.deleteSpace { index := 1 }) Faults.none,
   .command (sampleCreate 4) (failing .allocate [.storageError])]

theorem locks_permanent_sample :
    (∃ s', (run sampleBuild (sampleControlledSpaces ++
        .command (.lockSpaceWrite { index := 1 }) Faults.none :: sampleTraffic)).storage.space 1 =
          some s' ∧ s'.contents = [0]) ∧
      (run sampleBuild (sampleControlledSpaces ++
        .command (.lockSpaceRead { index := 3 }) Faults.none :: sampleTraffic)).result sampleBuild
          (.command (.readSpace { index := 3 }) Faults.none) ≠ some .success ∧
      (run sampleBuild (sampleControlledSpaces ++
        .command .disableCreate Faults.none :: sampleTraffic)).result sampleBuild
          (.command (sampleCreate 5) Faults.none) ≠ some .success := by
  have hnone : Faults.none.Errorless := by intro c; simp [Faults.none]
  have hspaces : ∀ e ∈ sampleControlledSpaces, e.Regular := by
    simp [sampleControlledSpaces, sampleControlled, Event.Regular, hnone]
  have htraffic : ∀ e ∈ sampleTraffic, e.Regular := by
    have hfail : (failing .allocate [.storageError]).Errorless := by
      intro c
      cases c <;> simp [failing]
    simp [sampleTraffic, sampleCreate, Event.Regular, hnone, hfail]
  obtain ⟨hpersistent, hboot, hcreate⟩ := locks_permanent sampleBuild sampleControlledSpaces
    sampleTraffic Faults.none Faults.none hspaces htraffic hnone hnone
  refine ⟨?_, ?_, hcreate (by decide) _⟩
  · exact (hpersistent { index := 1 } ⟨0, 2, [], [0]⟩ (by decide) (by decide) (by decide)).1
  · exact hboot .read { index := 3 } ⟨0, 8, [], [0]⟩ (by decide) (by decide) (by decide)
      (by decide) (.readSpace { index := 3 }) (by decide)

end Nvram
