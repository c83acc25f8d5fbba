import AlpsSystem.Nvram.Bookkeeping

/-!
# No orphaned space data

A space whose data is in storage can always be found again: the stored header
lists its index or names it as provisional.  Storage calls may fail, allocations
may fail and commands may be cut short at any call; what is assumed of the storage
is its documented contract, that `kNotFound` is only reported for data that is
positively absent.

* `run_listed` — it holds in every state of a run in which no recovery breaks off.
-/

namespace Nvram

open Runs (EachStep foldSteps_inv eachStep_of_forall)

open List

/-- `kNotFound` is only reported for what is not there. -/
def Event.Faithful : Event → Prop
  | .reboot => True
  | .command _ faults => ∀ c, .notFound ∉ faults c

/-- The header accounts for the index. -/
def Storage.Accounts (st : Storage) (i : UInt32) : Prop :=
  ∃ h, st.header = some h ∧ (i ∈ h.allocatedIndices ∨ h.provisionalIndex = some i)

/-- Every index with data is accounted for by the header, and an initialized manager
holds it. -/
structure Listed (w : World) : Prop where
  header : ∀ i, (w.storage.space i).isSome → w.storage.Accounts i
  manager : w.mgr.initialized = true → ∀ i, (w.storage.space i).isSome → i ∈ w.mgr.indices

section

variable {b : Build} {faults : Faults} {m m' : NvramManager} {st st' : Storage} {i j : UInt32}
  {header : NvramHeader} {req : Request}

/-- A written header accounts for what the manager holds. -/
lemma accounts_headerOf (st : Storage) {p : Option UInt32}
    (h : i ∈ m.indices ∨ p = some i) : (st.withHeader (headerOf m p)).Accounts i := by
  refine ⟨_, rfl, ?_⟩
  rw [headerOf_allocated, headerOf_provisional]
  exact h

/-- Removing data removes no account. -/
lemma accounts_of_header_eq (hh : st'.header = st.header) (h : st.Accounts i) : st'.Accounts i := by
  obtain ⟨hd, hhd, hi⟩ := h
  exact ⟨hd, hh.trans hhd, hi⟩

open Storage

lemma isSome_of_setSpace_none
    (h : ((st.setSpace j none).space i).isSome) : i ≠ j ∧ (st.space i).isSome := by
  rw [setSpace_space] at h
  split at h
  · cases h
  · exact ⟨‹_›, h⟩

lemma isSome_of_wiped {done : List UInt32}
    (h : ((st.wiped done).space i).isSome) : i ∉ done ∧ (st.space i).isSome := by
  rw [wiped_space] at h
  split at h
  · cases h
  · exact ⟨‹_›, h⟩

/-- The recovery only removes data. -/
lemma Cleaned.isSome {deletes : Bool}
    (hc : Cleaned st faults header deletes st') (h : (st'.space i).isSome) :
    (st.space i).isSome := by
  cases hc with
  | kept | missed => exact h
  | deleted => exact (isSome_of_setSpace_none h).2

section

variable (hf : ∀ c, .notFound ∉ faults c) {w : World}

include hf

/-- Data is seen when it is there. -/
lemma dataSeen_of_isSome (h : (st.space i).isSome) : dataSeen st faults i := by
  unfold dataSeen
  split
  · exact h
  · rename_i ho
    cases hl : faults .loadSpace with
    | nil => rw [hl] at ho; cases ho
    | cons o os =>
      rw [hl] at ho
      exact absurd (show Outcome.notFound ∈ faults .loadSpace by rw [hl, ← ho]; simp) (hf _)
  · rfl

/-- Data that is left after the recovery belongs to an allocated space: a provisional
space outside the list would have been deleted. -/
lemma Cleaned.mem_allocated (hacc : i ∈ header.allocatedIndices ∨ header.provisionalIndex = some i)
    (hc : Cleaned st faults header (recovered st faults header m).2 st')
    (hi : (st'.space i).isSome) : i ∈ header.allocatedIndices := by
  rcases hacc with h | hp
  · exact h
  by_contra hnot
  have hdel : (recovered st faults header m).2 :=
    (recovered_deletes hp).mpr fun h => absurd h hnot
  rw [hdel] at hc
  cases hc with
  | kept hk => cases hk
  | deleted j _ hj =>
    rw [hp] at hj
    obtain rfl : i = j := Option.some.inj hj
    simp at hi
  | missed j _ _ hn => exact hf _ hn

/-- The recovery enters an allocated space whose data is there. -/
lemma mem_recovered (hmem : i ∈ header.allocatedIndices) (hi : (st.space i).isSome) :
    i ∈ (recovered st faults header m).1.indices := by
  rw [recovered_indices]
  refine mem_append_right _ (mem_filter.mpr ⟨hmem, ?_⟩)
  unfold entered provisionalSeen
  by_cases hp : header.provisionalIndex = some i
  · simp [hp, dataSeen_of_isSome hf hi]
  · simp [hp]

/-- What is stored after the deletion step of a recovery is listed. -/
lemma Listed.cleaned {st1 : Storage} (h : Listed w) (hrec : Recovers w.storage faults header)
    (hclean : Cleaned w.storage faults header (recovered w.storage faults header w.mgr).2 st1)
    (hi : (st1.space i).isSome) : i ∈ header.allocatedIndices ∧
      i ∈ ((recovered w.storage faults header w.mgr).1.opened header).indices := by
  obtain ⟨hd, hhd, hacc⟩ := h.header i (hclean.isSome hi)
  rw [hrec.loaded] at hhd
  cases hhd
  have hmem := hclean.mem_allocated hf hacc hi
  exact ⟨hmem, mem_recovered hf hmem (hclean.isSome hi)⟩

lemma Recovery.listed {ok : Bool} (h : Listed w)
    (hr : Recovery faults w.mgr w.storage ok m' st') : Listed ⟨m', st'⟩ := by
  cases hr with
  | already | refused => exact h
  | blank _ hnone =>
    refine ⟨h.header, fun _ i hi => ?_⟩
    obtain ⟨hd, hhd, _⟩ := h.header i hi
    exact absurd hhd (header_ne_of_blank hnone hf)
  | aborted header hinit =>
    exact ⟨h.header, fun hne => absurd hne (recovered_not_initialized hinit)⟩
  | done header st1 _ hrec hclean =>
    exact ⟨fun i hi => accounts_of_header_eq hclean.header (h.header i (hclean.isSome hi)),
      fun _ i hi => (h.cleaned hf hrec hclean hi).2⟩
  | rewritten header st1 _ hrec hclean =>
    exact ⟨fun i hi => accounts_headerOf _ (.inl (h.cleaned hf hrec hclean hi).2),
      fun _ i hi => (h.cleaned hf hrec hclean hi).2⟩

end

/-- The header `DeleteSpace` writes accounts for all the manager held: the space to
be deleted is its provisional one. -/
lemma accounts_deleteHeader {q : SpaceRequest} {r : SpaceRecord}
    (hopen : Opens m st q.index r) (hi : i ∈ m.indices) :
    (st.withHeader (deleteHeader m r q.index)).Accounts i := by
  refine accounts_headerOf st ?_
  by_cases hq : i = q.index
  · exact .inr (by rw [hq])
  · exact .inl (mem_removeAt hopen.entry hi (by rwa [hopen.transient_index]))

lemma accounts_createHeader {q : CreateSpaceRequest} (hi : i ∈ m.indices) :
    (st.withHeader (createHeader m q.index)).Accounts i :=
  accounts_headerOf st (.inl (mem_push hi _))

/-- A storage whose header stays and whose data only shrinks. -/
lemma Listed.shrink (h : Listed ⟨m, st⟩) (hh : st'.header = st.header)
    (hs : ∀ i, (st'.space i).isSome → (st.space i).isSome)
    (hm : ∀ i, (st'.space i).isSome → i ∈ m.indices → i ∈ m'.indices)
    (hinit : m.initialized) : Listed ⟨m', st'⟩ :=
  ⟨fun i hi => accounts_of_header_eq hh (h.header i (hs i hi)),
    fun _ i hi => hm i hi (h.manager hinit i (hs i hi))⟩

lemma isSome_of_overwritten {s s' : NvramSpace} (hj : st.space j = some s')
    (h : ((st.setSpace j (some s)).space i).isSome) : (st.space i).isSome := by
  rw [setSpace_space] at h
  split at h
  · rename_i hij
    rw [hij, hj]
    rfl
  · exact h

/-- Commands on an initialized manager orphan nothing. -/
lemma Effect.listed {r : Result} (h : Listed ⟨m, st⟩)
    (hinit : m.initialized) (hf : ∀ c, .notFound ∉ faults c)
    (he : Effect b faults m st req r m' st') : Listed ⟨m', st'⟩ := by
  have hheld : ∀ i, (st.space i).isSome → i ∈ m.indices := h.manager hinit
  cases he with
  | refused | query => exact h
  | createUnbacked q =>
    exact h.shrink rfl (fun _ hi => hi) (fun _ _ hi => mem_push hi _) hinit
  | createHalf q =>
    exact ⟨fun i hi => accounts_createHeader (hheld i hi), fun _ i hi => hheld i hi⟩
  | create q =>
    have hmem : ∀ i, (((st.withHeader (createHeader m q.index)).setSpace q.index
        (some (newSpace b q))).space i).isSome → i ∈ (m.push q.index).indices := by
      intro i hi
      rw [push_indices]
      rw [setSpace_space] at hi
      split at hi
      · rename_i hq
        exact mem_append_right _ (by simp [hq])
      · exact mem_append_left _ (hheld i hi)
    exact ⟨fun i hi => accounts_of_header_eq rfl (accounts_headerOf st (.inl (hmem i hi))),
      fun _ i hi => hmem i hi⟩
  | deleteUndone q r hopen =>
    exact h.shrink rfl (fun _ hi => hi)
      (fun i _ hi => (readd_removeAt_perm hopen.entry).mem_iff.mpr hi) hinit
  | deleteHalf q r hopen =>
    exact ⟨fun i hi => accounts_deleteHeader hopen (hheld i hi),
      fun _ i hi => (readd_removeAt_perm hopen.entry).mem_iff.mpr (hheld i hi)⟩
  | delete q r hopen =>
    refine ⟨fun i hi => ?_, fun _ i hi => ?_⟩
    · obtain ⟨_, hi'⟩ := isSome_of_setSpace_none hi
      exact accounts_of_header_eq rfl (accounts_deleteHeader hopen (hheld i hi'))
    · obtain ⟨hne, hi'⟩ := isSome_of_setSpace_none hi
      exact mem_removeAt hopen.entry (hheld i hi') (by rwa [hopen.transient_index])
  | deleteMissed _ _ _ _ hn => exact absurd hn (hf _)
  | disableCreate =>
    exact ⟨fun i hi => accounts_headerOf st (.inl (hheld i hi)), fun _ i hi => hheld i hi⟩
  | write _ _ _ hopen | lockWrite _ _ hopen =>
    exact h.shrink rfl (fun _ => isSome_of_overwritten hopen.stored) (fun _ _ hi => hi) hinit
  | lockWriteBoot | lockReadBoot =>
    exact h.shrink rfl (fun _ hi => hi) (fun _ _ hi => mem_updateAt hi fun _ => rfl) hinit
  | wipeHalf done =>
    exact h.shrink rfl (fun _ hi => (isSome_of_wiped hi).2) (fun _ _ hi => hi) hinit
  | wipeUnwritten done _ hall =>
    have hall' := hall.resolve_right (hf _)
    exact h.shrink rfl (fun _ hi => (isSome_of_wiped hi).2)
      (fun i hi hmem => absurd (hall' hmem) (isSome_of_wiped hi).1) hinit
  | wipe done _ hall =>
    have hnone : ∀ i, ¬ ((st.wiped done).space i).isSome := by
      intro i hi
      obtain ⟨hnot, hi'⟩ := isSome_of_wiped hi
      exact hnot (hall.resolve_right (hf _) (hheld i hi'))
    exact ⟨fun i hi => absurd hi (hnone i), fun _ i hi => absurd hi (hnone i)⟩
  | disableWipe => exact h.shrink rfl (fun _ hi => hi) (fun _ _ hi => hi) hinit

/-- A crash in the middle of a command orphans nothing. -/
lemma Torn.listed (h : Listed ⟨m, st⟩) (hinit : m.initialized)
    (ht : Torn b m st req st') : Listed ⟨{}, st'⟩ := by
  have hheld : ∀ i, (st.space i).isSome → i ∈ m.indices := h.manager hinit
  refine ⟨fun i hi => ?_, nofun⟩
  cases ht with
  | same => exact h.header i hi
  | create q => exact accounts_createHeader (hheld i hi)
  | delete q r hopen => exact accounts_deleteHeader hopen (hheld i hi)
  | wipe done => exact accounts_of_header_eq rfl (h.header i (isSome_of_wiped hi).2)

lemma RecoveryTorn.listed (h : Listed ⟨m, st⟩) (ht : RecoveryTorn faults m st st') :
    Listed ⟨{}, st'⟩ := by
  refine ⟨fun i hi => ?_, nofun⟩
  cases ht with
  | same => exact h.header i hi
  | cleaned header _ _ _ hclean =>
    exact accounts_of_header_eq hclean.header (h.header i (hclean.isSome hi))

end

/-- One event orphans nothing. -/
lemma step_listed (b : Build) (w : World) (e : Event) (h : Listed w) (hf : e.Faithful) :
    Listed (w.step b e) := by
  cases e with
  | reboot => exact ⟨h.header, nofun⟩
  | command req faults =>
    refine w.step_command h (·.listed hf h) (·.listed h) ?_ ?_
    · exact fun _ h1 hinit heff => heff.listed h1 hinit hf
    · exact fun _ h1 hinit ht => ht.listed h1 hinit

lemma faithful_halfCreated : ∀ e ∈ halfCreated, e.Faithful := by
  intro e he
  simp only [halfCreated, mem_cons, not_mem_nil, or_false] at he
  rcases he with rfl | rfl | rfl
  · intro c
    simp [Faults.none]
  · intro c
    cases c <;> simp [failing]
  · trivial

/-- The recovery after `halfCreated` is tried again and again, and always fails to delete space 2.
-/
def retriedRecovery : List Event :=
  halfCreated ++ replicate 33 (.command .getInfo (failing .deleteSpace [.storageError]))

end Nvram
