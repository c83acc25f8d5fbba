import AlpsSystem.Nvram.Recovery

/-!
# What the commands of the NVRAM manager can do

The possible changes of a command to an initialized manager and its storage, and
the storage states a crash in the middle of it can leave.  The invariants of the
manager are proved from these lists and never look at the code again.
-/

namespace Nvram

open CrashProg (wp wp_bind wp_pure wp_ite wp_mono)

open List

/-! ## Commands -/

/-- A space record as `LoadSpaceRecord` delivers it. -/
structure Opens (m : NvramManager) (st : Storage) (index : UInt32) (r : SpaceRecord) : Prop where
  position : findSpace m index = r.arrayIndex
  found : findSpace m index ≠ kMaxSpaces
  entry : m.spaces[r.arrayIndex]? = some r.transient
  stored : st.space index = some r.persistent

/-- The commands that change nothing. -/
def Request.isQuery : Request → Bool
  | .getInfo | .getSpaceInfo _ | .readSpace _ => true
  | _ => false

/-- The header `CreateSpace` writes. -/
def createHeader (m : NvramManager) (index : UInt32) : NvramHeader :=
  headerOf (m.push index) (some index)

/-- The header `DeleteSpace` writes. -/
def deleteHeader (m : NvramManager) (r : SpaceRecord) (index : UInt32) : NvramHeader :=
  headerOf (m.removeAt r.arrayIndex) (some index)

/-- What a command can do to an initialized manager and its storage. -/
inductive Effect (b : Build) (faults : Faults) (m : NvramManager) (st : Storage) :
    Request → Result → NvramManager → Storage → Prop where
  | refused (req r) : r ≠ .success → Effect b faults m st req r m st
  | query (req r) : req.isQuery = true → Effect b faults m st req r m st
  | createUnbacked (q) : m.disableCreate = false → checkCreate b m q = none →
      Effect b faults m st (.createSpace q) .internalError (m.push q.index) st
  | createHalf (q) : m.disableCreate = false → checkCreate b m q = none →
      Effect b faults m st (.createSpace q) .internalError m
        (st.withHeader (createHeader m q.index))
  | create (q) : m.disableCreate = false → checkCreate b m q = none →
      Effect b faults m st (.createSpace q) .success (m.push q.index)
        ((st.withHeader (createHeader m q.index)).setSpace q.index (some (newSpace b q)))
  | deleteUndone (q r) : Opens m st q.index r →
      r.checkWriteAccess b q.authorizationValue = .success →
      Effect b faults m st (.deleteSpace q) .internalError
        ((m.removeAt r.arrayIndex).readd r.transient) st
  | deleteHalf (q r) : Opens m st q.index r → r.checkWriteAccess b q.authorizationValue = .success →
      .storageError ∈ faults .deleteSpace →
      Effect b faults m st (.deleteSpace q) .internalError
        ((m.removeAt r.arrayIndex).readd r.transient) (st.withHeader (deleteHeader m r q.index))
  | delete (q r) : Opens m st q.index r → r.checkWriteAccess b q.authorizationValue = .success →
      Effect b faults m st (.deleteSpace q) .success (m.removeAt r.arrayIndex)
        ((st.withHeader (deleteHeader m r q.index)).setSpace q.index none)
  | deleteMissed (q r) : Opens m st q.index r →
      r.checkWriteAccess b q.authorizationValue = .success → .notFound ∈ faults .deleteSpace →
      Effect b faults m st (.deleteSpace q) .success (m.removeAt r.arrayIndex)
        (st.withHeader (deleteHeader m r q.index))
  | disableCreate :
      Effect b faults m st .disableCreate .success { m with disableCreate := true }
        (st.withHeader (headerOf { m with disableCreate := true } none))
  | write (q r contents) : Opens m st q.index r →
      r.checkWriteAccess b q.authorizationValue = .success →
      writtenContents b r.persistent q.buffer = some contents →
      Effect b faults m st (.writeSpace q) .success m
        (st.setSpace q.index (some { r.persistent with contents := contents }))
  | lockWrite (q r) : Opens m st q.index r → r.checkWriteAccess b q.authorizationValue = .success →
      r.persistent.hasControl b.controlPersistentWriteLock = true →
      Effect b faults m st (.lockSpaceWrite q) .success m
        (st.setSpace q.index (some (r.persistent.setFlag NvramSpace.kFlagWriteLocked)))
  | lockWriteBoot (q r) : Opens m st q.index r →
      r.checkWriteAccess b q.authorizationValue = .success →
      r.persistent.hasControl b.controlPersistentWriteLock = false →
      r.persistent.hasControl b.controlBootWriteLock = true →
      Effect b faults m st (.lockSpaceWrite q) .success
        (m.updateAt r.arrayIndex fun e => { e with writeLocked := true }) st
  | lockReadBoot (q r) : Opens m st q.index r →
      r.checkReadAccess b q.authorizationValue = .success →
      r.persistent.hasControl b.controlBootReadLock = true →
      Effect b faults m st (.lockSpaceRead q) .success
        (m.updateAt r.arrayIndex fun e => { e with readLocked := true }) st
  | wipeHalf (done) : done ⊆ m.indices →
      Effect b faults m st .wipeStorage .internalError m (st.wiped done)
  | wipeUnwritten (done) : done ⊆ m.indices → (m.indices ⊆ done ∨ .notFound ∈ faults .deleteSpace) →
      Effect b faults m st .wipeStorage .internalError { m with spaces := [] } (st.wiped done)
  | wipe (done) : done ⊆ m.indices → (m.indices ⊆ done ∨ .notFound ∈ faults .deleteSpace) →
      Effect b faults m st .wipeStorage .success { m with spaces := [] }
        ((st.wiped done).withHeader (headerOf { m with spaces := [] } none))
  | disableWipe : Effect b faults m st .disableWipe .success { m with disableWipe := true } st

/-- What a crash in the middle of a command on an initialized manager can leave. -/
inductive Torn (b : Build) (m : NvramManager) (st : Storage) : Request → Storage → Prop where
  | same (req) : Torn b m st req st
  | create (q) : m.disableCreate = false → checkCreate b m q = none →
      Torn b m st (.createSpace q) (st.withHeader (createHeader m q.index))
  | delete (q r) : Opens m st q.index r → r.checkWriteAccess b q.authorizationValue = .success →
      Torn b m st (.deleteSpace q) (st.withHeader (deleteHeader m r q.index))
  | wipe (done) : done ⊆ m.indices → Torn b m st .wipeStorage (st.wiped done)

open Bool Response

section Bodies

variable {b : Build} {faults : Faults} {w w' : Machine} {index : UInt32} {C : Machine → Prop}
  {α : Type} {req : Request} {space : NvramSpace} {m : NvramManager}

/-- A command body from `w` does what `Effect` and `Torn` list for the request. -/
def Does (b : Build) (faults : Faults) (w : Machine) (req : Request) {α : Type} (res : α → Result)
    (body : Prog α) : Prop :=
  wp body (fun a w' => Effect b faults w.mgr w.storage req (res a) w'.mgr w'.storage)
    (fun w' => Torn b w.mgr w.storage req w'.storage) w

lemma loadSpaceRecord_wp {Q : Except Result SpaceRecord → Machine → Prop}
    (hcrash : ∀ w', w'.storage = w.storage → C w')
    (herror : ∀ r w', r ≠ .success → w'.mgr = w.mgr → w'.storage = w.storage → Q (.error r) w')
    (hok : ∀ r w', Opens w.mgr w.storage index r → w'.mgr = w.mgr → w'.storage = w.storage →
      (∀ c, w'.faults c ⊆ w.faults c) → Q (.ok r) w') :
    wp (loadSpaceRecord index) Q C w := by
  unfold loadSpaceRecord
  simp only [wp_bind, wp_manager, wp_ite]
  split
  · exact herror _ _ (by decide) rfl rfl
  rename_i hfound
  refine wp_load (hcrash _ rfl) ?_ ?_ ?_ ?_
  · intro persistent _ hstored
    dsimp only
    split
    · rename_i transient hentry
      exact hok ⟨_, transient, persistent⟩ _ ⟨rfl, hfound, hentry, hstored⟩ rfl rfl
        (drew_faults_subset w _)
    · exact herror _ _ (by decide) rfl rfl
  · intro _ _
    exact herror _ _ (by decide) rfl rfl
  · intro _
    exact herror _ _ (by decide) rfl rfl
  · intro _
    exact herror _ _ (by decide) rfl rfl

/-- A body that starts by loading the space record. -/
lemma does_loadSpaceRecord {res : α → Result} {f : Except Result SpaceRecord → Prog α}
    (herror : ∀ r w', r ≠ .success → w'.mgr = w.mgr → w'.storage = w.storage →
      wp (f (.error r)) (fun a w'' =>
        Effect b faults w.mgr w.storage req (res a) w''.mgr w''.storage)
        (fun w'' => Torn b w.mgr w.storage req w''.storage) w')
    (hok : ∀ r w', Opens w'.mgr w'.storage index r → (∀ c, w'.faults c ⊆ w.faults c) →
      Does b faults w' req res (f (.ok r))) :
    Does b faults w req res (loadSpaceRecord index >>= f) := by
  unfold Does
  rw [wp_bind]
  refine loadSpaceRecord_wp ?_ herror ?_
  · intro w' hs
    rw [hs]
    exact .same _
  · intro r w' hopen hm hs hf
    have h := hok r w' (by rw [hm, hs]; exact hopen) hf
    unfold Does at h
    rwa [hm, hs] at h

/-- A refusal leaves everything as it was. -/
lemma refused_wp (res : α → Result) {a : α} (hm : w'.mgr = w.mgr) (hs : w'.storage = w.storage)
    (h : res a ≠ .success ∨ req.isQuery) :
    wp (pure a : Prog α)
      (fun a w'' => Effect b faults w.mgr w.storage req (res a) w''.mgr w''.storage)
      (fun w'' => Torn b w.mgr w.storage req w''.storage) w' := by
  rw [wp_pure, hm, hs]
  rcases h with h | h
  · exact .refused _ _ h
  · exact .query _ _ h

/-- A store that replaces a space's data, or fails and changes nothing. -/
lemma writeSpaceData_wp (hm : w'.mgr = w.mgr) (hs : w'.storage = w.storage)
    (h : Effect b faults w.mgr w.storage req .success w.mgr
      (w.storage.setSpace index (some space))) :
    wp (writeSpaceData index space)
      (fun a w'' => Effect b faults w.mgr w.storage req a w''.mgr w''.storage)
      (fun w'' => Torn b w.mgr w.storage req w''.storage) w' := by
  unfold writeSpaceData
  simp only [wp_bind]
  refine wp_store ?_ ?_ ?_ ?_
  · rw [drew_storage, hs]
    exact .same _
  · rw [wp_pure, drew_mgr, hm, hs]
    exact h
  · intro _
    exact refused_wp id hm hs (.inl (by decide))
  · intro _
    exact refused_wp id hm hs (.inl (by decide))

open NvramManager

lemma createSpaceWrites_wp (faults : Faults) {q : CreateSpaceRequest}
    (hm : w.mgr = m.push q.index) (hd : m.disableCreate = false) (hc : checkCreate b m q = none) :
    wp (createSpaceWrites q.index (newSpace b q))
      (fun r w' => Effect b faults m w.storage (.createSpace q) r w'.mgr w'.storage)
      (fun w' => Torn b m w.storage (.createSpace q) w'.storage) w := by
  have hpop : (m.push q.index).pop = m := by
    simp [push, pop]
  unfold createSpaceWrites
  simp only [wp_bind]
  refine writeHeader_wp ?_ ?_ ?_
  · intro w' hs
    rw [hs]
    exact .same _
  · intro w1 hm1 hf1 _ hs1
    have hs2 : w1.storage = w.storage.withHeader (createHeader m q.index) := by
      rw [hs1, hm]; rfl
    unfold writeSpaceData
    simp only [wp_bind]
    refine wp_store ?_ ?_ ?_ ?_
    · rw [drew_storage, hs2]
      exact .create q hd hc
    · simp only [drew_mgr, hm1, hm, hs2]
      exact .create q hd hc
    · intro _
      simp only [wp_bind, wp_pure, wp_setManager, drew_mgr, drew_storage, hm1, hm, hs2, hpop]
      exact .createHalf q hd hc
    · intro _
      simp only [wp_bind, wp_pure, wp_setManager, drew_mgr, drew_storage, hm1, hm, hs2, hpop]
      exact .createHalf q hd hc
  · intro w1 hm1 _ hs1
    simp only [wp_bind, wp_setManager, hm1, hm, hs1, hpop]
    exact .refused _ _ (by decide)

/-- Every refusal of the parameter checks is a failure. -/
lemma checkCreate_ne_success (m : NvramManager) (q : CreateSpaceRequest) :
    checkCreate b m q ≠ some .success := by
  unfold checkCreate
  simp only
  repeat' split
  all_goals decide

lemma deleteSpaceWrites_wp {q : SpaceRequest} {r : SpaceRecord}
    (hm : w.mgr = m.removeAt r.arrayIndex) (hopen : Opens m w.storage q.index r)
    (ha : r.checkWriteAccess b q.authorizationValue = .success)
    (hsub : ∀ c, w.faults c ⊆ faults c) :
    wp (deleteSpaceWrites q.index r.transient)
      (fun a w' => Effect b faults m w.storage (.deleteSpace q) a w'.mgr w'.storage)
      (fun w' => Torn b m w.storage (.deleteSpace q) w'.storage) w := by
  unfold deleteSpaceWrites
  simp only [wp_bind]
  refine writeHeader_wp ?_ ?_ ?_
  · intro w' hs
    rw [hs]
    exact .same _
  · intro w1 hm1 hf1 _ hs1
    have hs2 : w1.storage = w.storage.withHeader (deleteHeader m r q.index) := by
      rw [hs1, hm]; rfl
    simp only [wp_bind]
    refine wp_deleteSpaceData ?_ ?_ ?_ ?_
    · rw [drew_storage, hs2]
      exact .delete q r hopen ha
    · intro status hne
      cases status with
      | kStorageError => exact absurd rfl hne
      | kNotFound | kSuccess =>
        simp only [drew_mgr, hm1, hm, hs2]
        exact .delete q r hopen ha
    · intro ho
      simp only [wp_pure, drew_mgr, drew_storage, hm1, hm, hs2]
      exact .deleteMissed q r hopen ha (hsub _ (hf1 _ (mem_faults_of_outcome ho (by decide))))
    · intro ho
      simp only [wp_bind, wp_setManager, drew_mgr, drew_storage, hm1, hm, hs2]
      exact .deleteHalf q r hopen ha (hsub _ (hf1 _ (mem_faults_of_outcome ho (by decide))))
  · intro w1 hm1 _ hs1
    simp only [wp_bind, wp_setManager, hm1, hm, hs1]
    exact .deleteUndone q r hopen ha

/-- The wiping loop deletes the listed spaces one by one; `done` are those of
earlier rounds. -/
lemma wipeSpaces_wp (m : NvramManager) (st : Storage) (todo : List UInt32) :
    ∀ (done : List UInt32) (w : Machine), w.mgr = m → w.storage = st.wiped done →
      (∀ c, w.faults c ⊆ faults c) →
      wp (wipeSpaces todo)
        (fun r w' => w'.mgr = m ∧ ∃ more, more ⊆ todo ∧ w'.storage = st.wiped (more ++ done) ∧
          ((r = .success ∧ (todo ⊆ more ∨ .notFound ∈ faults .deleteSpace)) ∨ r = .internalError))
        (fun w' => ∃ more, more ⊆ todo ∧ w'.storage = st.wiped (more ++ done)) w := by
  induction todo with
  | nil =>
    intro done w hm hs _
    exact ⟨hm, [], .refl _, hs, .inl ⟨rfl, .inl (.refl _)⟩⟩
  | cons i todo ih =>
    intro done w hm hs hsub
    -- one more space is gone, and the rest of the loop goes on from there
    have hnext : ∀ w' : Machine, w'.mgr = m → w'.storage = st.wiped (i :: done) →
        (∀ c, w'.faults c ⊆ faults c) → wp (wipeSpaces todo)
        (fun r w' => w'.mgr = m ∧ ∃ more, more ⊆ i :: todo ∧ w'.storage = st.wiped (more ++ done) ∧
          ((r = .success ∧ (i :: todo ⊆ more ∨ .notFound ∈ faults .deleteSpace)) ∨
            r = .internalError))
        (fun w' => ∃ more, more ⊆ i :: todo ∧ w'.storage = st.wiped (more ++ done)) w' := by
      intro w' hm' hs' hsub'
      refine wp_mono (ih (i :: done) w' hm' hs' hsub') ?_ ?_
      · rintro r w2 ⟨hm2, more, hmore, hs2, hr⟩
        refine ⟨hm2, more ++ [i], ?_, by rw [hs2, append_assoc]; rfl, ?_⟩
        · grind
        · grind
      · rintro w2 ⟨more, hmore, hs2⟩
        refine ⟨more ++ [i], ?_, by rw [hs2, append_assoc]; rfl⟩
        grind
    unfold wipeSpaces
    rw [wp_bind]
    refine wp_deleteSpaceData ?_ ?_ ?_ ?_
    · exact ⟨[], by simp, hs⟩
    · intro status hne
      have hs' : w.storage.setSpace i none = st.wiped (i :: done) := by
        rw [hs, wiped_setSpace]
      cases status with
      | kStorageError => exact absurd rfl hne
      | kNotFound | kSuccess => exact hnext _ hm hs' (drew_sub hsub)
    · intro ho
      have hmem := hsub _ (mem_faults_of_outcome ho (by decide))
      refine wp_mono (ih done _ hm hs (drew_sub hsub)) ?_ ?_
      · rintro r w2 ⟨hm2, more, hmore, hs2, hr⟩
        refine ⟨hm2, more, subset_cons_of_subset _ hmore, hs2, ?_⟩
        exact hr.imp (fun h => ⟨h.1, .inr hmem⟩) id
      · rintro w2 ⟨more, hmore, hs2⟩
        exact ⟨more, subset_cons_of_subset _ hmore, hs2⟩
    · intro _
      exact ⟨hm, [], by simp, hs, .inr rfl⟩

/-! ## Dispatch -/

/-- What a command as a whole can do, recovery included. -/
inductive Commanded (b : Build) (faults : Faults) (m : NvramManager) (st : Storage)
    (req : Request) : Result → NvramManager → Storage → Prop where
  | unknown : req = .none → Commanded b faults m st req .invalidParameter m st
  | failed (m₁ st₁) : Recovery faults m st false m₁ st₁ →
      Commanded b faults m st req .internalError m₁ st₁
  | ran (m₁ st₁ r m' st') : Recovery faults m st true m₁ st₁ →
      Effect b faults m₁ st₁ req r m' st' → Commanded b faults m st req r m' st'

/-- What a crash during a command can leave. -/
inductive CommandTorn (b : Build) (faults : Faults) (m : NvramManager) (st : Storage)
    (req : Request) : Storage → Prop where
  | recovery (st') : RecoveryTorn faults m st st' → CommandTorn b faults m st req st'
  | body (m₁ st₁ st') : Recovery faults m st true m₁ st₁ → Torn b m₁ st₁ req st' →
      CommandTorn b faults m st req st'

/-- A command from `w` does what `Commanded` and `CommandTorn` list for the request. -/
def Commands (b : Build) (w : Machine) (req : Request) (res : α → Result) (command : Prog α) :
    Prop :=
  wp command (fun a w' => Commanded b w.faults w.mgr w.storage req (res a) w'.mgr w'.storage)
    (fun w' => CommandTorn b w.faults w.mgr w.storage req w'.storage) w

/-- Each command initializes the manager first and gives up when that fails. -/
lemma initialized_wp (res : α → Result) {giveUp : α} {body : Prog α}
    (hfail : res giveUp = .internalError)
    (hbody : ∀ w', (∀ c, w'.faults c ⊆ w.faults c) → Does b w.faults w' req res body) :
    Commands b w req res (initializeManager >>= fun ok => if (!ok) then pure giveUp else body) := by
  unfold Commands
  rw [wp_bind]
  refine wp_mono (initializeManager_wp w) ?_ ?_
  · rintro ok w1 ⟨hrec, hsub⟩
    cases ok with
    | false =>
      simp only [Bool.not_false, if_true, wp_pure, hfail]
      exact .failed _ _ hrec
    | true =>
      refine wp_mono (hbody w1 hsub) ?_ ?_
      · intro a w2 he
        exact .ran _ _ _ _ _ hrec he
      · intro w2 ht
        exact .body _ _ _ hrec ht
  · intro w1 ht
    exact .recovery _ ht

lemma Commands.plain {p : Prog Result} (h : Commands b w req id p) :
    Commands b w req result (plain p) := by
  unfold Commands Nvram.plain
  rw [wp_bind]
  exact h

lemma getInfo_wp : Commands b w .getInfo result getInfo := by
  refine initialized_wp result rfl ?_
  intro w1 hsub
  unfold Does
  simp only [wp_bind, wp_manager]
  refine wp_allocate (.same _) ?_
  intro ok
  split
  · exact .query _ _ rfl
  · exact .query _ _ rfl

lemma createSpace_wp (q : CreateSpaceRequest) :
    Commands b w (.createSpace q) id (createSpace b q) := by
  refine initialized_wp id rfl ?_
  intro w1 hsub
  unfold Does
  simp only [wp_bind, wp_manager, id]
  split
  · exact .refused _ _ (by decide)
  rename_i hd
  rw [not_eq_true] at hd
  cases hc : checkCreate b w1.mgr q with
  | some r =>
    refine .refused _ _ ?_
    intro hr
    exact checkCreate_ne_success w1.mgr q (hr ▸ hc)
  | none =>
    simp only [wp_bind, wp_setManager]
    -- the entry is in the list before the first allocation
    have hunbacked : Effect b w.faults w1.mgr w1.storage (.createSpace q) .internalError
        (w1.mgr.push q.index) w1.storage := .createUnbacked q hd hc
    have hwrites : ∀ w2 : Machine, w2.mgr = w1.mgr.push q.index → w2.storage = w1.storage →
        wp (allocate >>= fun ok => if (!ok) then pure .internalError else
            createSpaceWrites q.index (newSpace b q))
          (fun r w' => Effect b w.faults w1.mgr w1.storage (.createSpace q) r w'.mgr w'.storage)
          (fun w' => Torn b w1.mgr w1.storage (.createSpace q) w'.storage) w2 := by
      intro w2 hm2 hs2
      rw [wp_bind]
      refine wp_allocate ?_ ?_
      · rw [drew_storage, hs2]
        exact .same _
      · intro ok
        cases ok with
        | false =>
          simp only [Bool.not_false, if_true, wp_pure, drew_mgr, drew_storage, hm2, hs2]
          exact hunbacked
        | true =>
          have h := createSpaceWrites_wp w.faults (w := w2.drew .allocate) hm2 hd hc
          rwa [drew_storage, hs2] at h
    refine wp_allocateIf (.same _) ?_ ?_
    · exact hwrites _ rfl rfl
    · intro ok
      cases ok with
      | false => exact hunbacked
      | true =>
        exact hwrites _ rfl rfl

lemma getControlsVector_wp {Q : Result × List UInt32 → Machine → Prop} (todo : List UInt32) :
    ∀ (controls : List UInt32) (w : Machine), (∀ w', w'.storage = w.storage → C w') →
      (∀ r w', w'.mgr = w.mgr → w'.storage = w.storage → Q r w') →
      wp (getControlsVector space todo controls) Q C w := by
  induction todo with
  | nil =>
    intro controls w _ hret
    exact hret _ w rfl rfl
  | cons control todo ih =>
    intro controls w hcrash hret
    unfold getControlsVector
    rw [wp_ite]
    split
    · rw [wp_bind]
      refine wp_allocate (hcrash _ rfl) ?_
      intro ok
      split
      · exact hret _ _ rfl rfl
      · exact ih _ _ hcrash hret
    · exact ih _ _ hcrash hret

lemma getSpaceInfo_wp (index : UInt32) :
    Commands b w (.getSpaceInfo index) result (getSpaceInfo b index) := by
  refine initialized_wp result rfl ?_
  intro w1 _
  refine does_loadSpaceRecord ?_ ?_
  · intro r w2 _ hm hs
    exact refused_wp result hm hs (.inr rfl)
  · intro r w2 _ _
    unfold Does
    simp only [wp_bind]
    refine getControlsVector_wp _ _ _ ?_ ?_
    · intro w' hs
      rw [hs]
      exact .same _
    · intro controls w' hm hs
      split
      · exact refused_wp result hm hs (.inr rfl)
      · exact refused_wp result hm hs (.inr rfl)

section

variable (q : SpaceRequest)

lemma readSpace_wp : Commands b w (.readSpace q) result (readSpace b q) := by
  unfold readSpace
  refine initialized_wp result rfl ?_
  intro w1 _
  refine does_loadSpaceRecord ?_ ?_
  · intro r w2 _ hm hs
    exact refused_wp result hm hs (.inr rfl)
  · intro r w2 _ _
    unfold Does
    dsimp only
    split
    · rw [wp_bind]
      refine wp_allocate (.same _) ?_
      intro ok
      split
      · exact .query _ _ rfl
      · exact .query _ _ rfl
    · exact .query _ _ rfl

lemma deleteSpace_wp : Commands b w (.deleteSpace q) id (deleteSpace b q) := by
  refine initialized_wp id rfl ?_
  intro w1 hsub
  refine does_loadSpaceRecord ?_ ?_
  · intro r w2 hr hm hs
    exact refused_wp id hm hs (.inl hr)
  · intro r w2 hopen hf
    unfold Does
    dsimp only
    split
    · rename_i ha
      rw [wp_bind]
      refine deleteSpaceWrites_wp rfl hopen ha ?_
      exact fun c => List.Subset.trans (hf c) (hsub c)
    · rename_i hne
      exact refused_wp id rfl rfl (.inl hne)

lemma disableCreate_wp : Commands b w .disableCreate id disableCreate := by
  refine initialized_wp id rfl ?_
  intro w1 _
  unfold Does
  simp only [wp_bind, wp_manager, wp_setManager]
  refine writeHeader_wp ?_ ?_ ?_
  · intro w' hs
    rw [hs]
    exact .same _
  · intro w' hm _ _ hs
    rw [wp_pure, hm, hs]
    exact .disableCreate
  · intro w' hm _ hs
    simp only [wp_bind, wp_setManager, hm, hs]
    exact .refused _ _ (by decide)

lemma writeSpace_wp (q : WriteSpaceRequest) : Commands b w (.writeSpace q) id (writeSpace b q) := by
  refine initialized_wp id rfl ?_
  intro w1 _
  refine does_loadSpaceRecord ?_ ?_
  · intro r w2 hr hm hs
    exact refused_wp id hm hs (.inl hr)
  · intro r w2 hopen _
    unfold Does
    dsimp only
    split
    · rename_i ha
      rw [wp_bind]
      cases hwc : writtenContents b r.persistent q.buffer with
      | none =>
        refine wp_allocateIf (.same _) (refused_wp id rfl rfl (.inl (by decide))) ?_
        intro ok
        cases ok <;> exact refused_wp id rfl rfl (.inl (by decide))
      | some contents =>
        have heffect : Effect b w.faults w2.mgr w2.storage (.writeSpace q) .success w2.mgr _ :=
          .write q r contents hopen ha hwc
        refine wp_allocateIf (.same _) (writeSpaceData_wp rfl rfl heffect) ?_
        intro ok
        cases ok with
        | false => exact refused_wp id rfl rfl (.inl (by decide))
        | true => exact writeSpaceData_wp rfl rfl heffect
    · rename_i hne
      exact refused_wp id rfl rfl (.inl hne)

lemma lockSpaceWrite_wp : Commands b w (.lockSpaceWrite q) id (lockSpaceWrite b q) := by
  refine initialized_wp id rfl ?_
  intro w1 _
  refine does_loadSpaceRecord ?_ ?_
  · intro r w2 hr hm hs
    exact refused_wp id hm hs (.inl hr)
  · intro r w2 hopen _
    unfold Does
    dsimp only
    split
    · rename_i ha
      split
      · rename_i hp
        exact writeSpaceData_wp rfl rfl (.lockWrite q r hopen ha hp)
      · rename_i hp
        rw [not_eq_true] at hp
        split
        · rename_i hboot
          exact .lockWriteBoot q r hopen ha hp hboot
        · exact refused_wp id rfl rfl (.inl (by decide))
    · rename_i hne
      exact refused_wp id rfl rfl (.inl hne)

lemma lockSpaceRead_wp : Commands b w (.lockSpaceRead q) id (lockSpaceRead b q) := by
  unfold lockSpaceRead
  refine initialized_wp id rfl ?_
  intro w1 _
  refine does_loadSpaceRecord ?_ ?_
  · intro r w2 hr hm hs
    exact refused_wp id hm hs (.inl hr)
  · intro r w2 hopen _
    unfold Does
    dsimp only
    split
    · rename_i ha
      split
      · rename_i hboot
        exact .lockReadBoot q r hopen ha hboot
      · exact refused_wp id rfl rfl (.inl (by decide))
    · rename_i hne
      exact refused_wp id rfl rfl (.inl hne)

end

lemma wipeStorage_wp : Commands b w .wipeStorage id (wipeStorage b) := by
  refine initialized_wp id rfl ?_
  intro w1 hsub
  unfold Does
  simp only [wp_bind, wp_manager, wp_ite]
  split
  · exact .refused _ _ (by decide)
  split
  · exact .refused _ _ (by decide)
  have hloop := wipeSpaces_wp w1.mgr w1.storage w1.mgr.indices [] w1 rfl
    (wiped_nil _).symm hsub
  refine wp_mono hloop ?_ ?_
  · rintro r w2 ⟨hm2, done, hdone, hs2, hr⟩
    rw [append_nil] at hs2
    rcases hr with ⟨rfl, hall⟩ | rfl
    · refine writeHeader_wp ?_ ?_ ?_
      · intro w' hs
        rw [hs, hs2]
        exact .wipe done hdone
      · intro w' hm _ _ hs
        simp only [hm, hs, hm2, hs2]
        exact .wipe done hdone hall
      · intro w' hm _ hs
        simp only [hm, hs, hm2, hs2]
        exact .wipeUnwritten done hdone hall
    · rw [wp_pure, hm2, hs2]
      exact .wipeHalf done hdone
  · rintro w2 ⟨done, hdone, hs2⟩
    rw [append_nil] at hs2
    rw [hs2]
    exact .wipe done hdone

lemma disableWipe_wp : Commands b w .disableWipe id (disableWipe b) := by
  refine initialized_wp id rfl ?_
  intro w1 _
  unfold Does
  split
  · exact .refused _ _ (by decide)
  · exact .disableWipe

/-- **Every command does what `Commanded` lists.** -/
theorem dispatch_wp (req : Request) : Commands b w req result (dispatch b req) := by
  cases req with
  | none => exact .unknown rfl
  | getInfo => exact getInfo_wp
  | createSpace q => exact (createSpace_wp q).plain
  | getSpaceInfo index => exact getSpaceInfo_wp index
  | deleteSpace q => exact (deleteSpace_wp q).plain
  | disableCreate => exact disableCreate_wp.plain
  | writeSpace q => exact (writeSpace_wp q).plain
  | readSpace q => exact readSpace_wp q
  | lockSpaceWrite q => exact (lockSpaceWrite_wp q).plain
  | lockSpaceRead q => exact (lockSpaceRead_wp q).plain
  | wipeStorage => exact wipeStorage_wp.plain
  | disableWipe => exact disableWipe_wp.plain

end Bodies

/-- What an event can do to a device, with the result a command returned. -/
inductive Stepped (b : Build) (w : World) : Event → Option Result → World → Prop where
  | reboot : Stepped b w .reboot none w.reboot
  | command (req faults r m st) : Commanded b faults w.mgr w.storage req r m st →
      Stepped b w (.command req faults) (some r) ⟨m, st⟩
  | torn (req faults st) : CommandTorn b faults w.mgr w.storage req st →
      Stepped b w (.command req faults) none ⟨{}, st⟩

/-- The result of the command in an event. -/
def World.result (b : Build) (w : World) : Event → Option Result
  | .reboot => none
  | .command req faults => (w.exec b req faults).1.map (·.result)

open World

/-- **Every event does what `Stepped` lists.** -/
theorem World.stepped (b : Build) (w : World) (e : Event) :
    Stepped b w e (w.result b e) (w.step b e) := by
  cases e with
  | reboot => exact .reboot
  | command req faults =>
    have h := dispatch_wp (b := b) (w := { mgr := w.mgr, storage := w.storage, faults })
      req
    unfold result step exec
    cases hrun : dispatch b req { mgr := w.mgr, storage := w.storage, faults } with
    | mk r m =>
      cases r with
      | none =>
        have ht := CrashProg.wp_none h hrun
        simp only [hrun]
        exact .torn req faults _ ht
      | some a =>
        have hc := CrashProg.wp_some h hrun
        simp only [hrun]
        exact .command req faults _ _ _ hc

/-- The rule for what a command keeps: the recovery keeps it, and from there the command. -/
lemma World.step_command {P : World → Prop} {b : Build} {w : World} {req : Request}
    {faults : Faults} (h : P w)
    (hrec : ∀ {ok m st}, Recovery faults w.mgr w.storage ok m st → P ⟨m, st⟩)
    (hcut : ∀ {st}, RecoveryTorn faults w.mgr w.storage st → P ⟨{}, st⟩)
    (heff : ∀ {m₁ st₁ r m st}, w.result b (.command req faults) = some r → P ⟨m₁, st₁⟩ →
      m₁.initialized → Effect b faults m₁ st₁ req r m st → P ⟨m, st⟩)
    (htorn : ∀ {m₁ st₁ st}, w.result b (.command req faults) = none → P ⟨m₁, st₁⟩ →
      m₁.initialized → Torn b m₁ st₁ req st → P ⟨{}, st⟩) :
    P (w.step b (.command req faults)) := by
  have hstep := w.stepped b (.command req faults)
  generalize hr : w.result b (.command req faults) = r, w.step b (.command req faults) = w' at hstep
  cases hstep with
  | command _ _ r m st hcmd =>
    cases hcmd with
    | unknown => exact h
    | failed _ _ hfail => exact hrec hfail
    | ran m₁ st₁ _ _ _ hdone he => exact heff hr (hrec hdone) hdone.initialized he
  | torn _ _ st ht =>
    cases ht with
    | recovery _ ht => exact hcut ht
    | body m₁ st₁ _ hdone ht => exact htorn hr (hrec hdone) hdone.initialized ht

/-- A command that succeeds has found or made the manager ready and had an effect. -/
lemma World.ran_of_success {b : Build} {w : World} {req : Request} {faults : Faults}
    (hres : w.result b (.command req faults) = some .success) :
    ∃ m₁ st₁ m st, w.step b (.command req faults) = ⟨m, st⟩ ∧
      Recovery faults w.mgr w.storage true m₁ st₁ ∧ Effect b faults m₁ st₁ req .success m st := by
  have hstep := w.stepped b (.command req faults)
  rw [hres] at hstep
  generalize w.step b (.command req faults) = w' at hstep
  cases hstep with
  | command _ _ _ m st hcmd =>
    cases hcmd with
    | ran m₁ st₁ _ _ _ hrec heff => exact ⟨m₁, st₁, m, st, rfl, hrec, heff⟩

end Nvram
