import AlpsSystem.Nvram.Orphans

/-!
# Durability of acknowledged spaces

A space whose creation, write or lock was acknowledged survives restarts with
exactly the acknowledged state, until it is deleted or the storage is wiped.  The
storage calls may fail and keep to their contract otherwise.

* `acknowledged_survives` — an acknowledged space is found after any later recovery,
  in a run where no deletion of it fails at its data.
-/

namespace Nvram

open Runs (EachStep foldSteps_inv eachStep_of_forall)

open List

/-- The state a request leaves a space in when it is acknowledged, from the state
the space was in. -/
def acknowledged (b : Build) (old : Option NvramSpace) : Request → Option NvramSpace
  | .createSpace q => some (newSpace b q)
  | .writeSpace q =>
    old.bind fun s => (writtenContents b s q.buffer).map fun c => { s with contents := c }
  | .lockSpaceWrite _ =>
    old.map fun s =>
      if s.hasControl b.controlPersistentWriteLock then s.setFlag NvramSpace.kFlagWriteLocked else s
  | _ => none

/-- The requests that change the stored state of the space `i`. -/
def Request.updates (i : UInt32) : Request → Bool
  | .createSpace q => q.index = i
  | .writeSpace q => q.index = i
  | .lockSpaceWrite q => q.index = i
  | _ => false

/-- An event ends the guarantee for space `i`: another update of it succeeded, a
deletion of it succeeded or was cut short, or the storage was wiped. -/
def supersedes (b : Build) (i : UInt32) (w : World) (e : Event) : Bool :=
  match e with
  | .reboot => false
  | .command .wipeStorage _ => true
  | .command (.deleteSpace q) _ =>
    q.index = i && (w.result b e = some .success || w.result b e = none)
  | .command req _ => req.updates i && w.result b e = some .success

/-- A storage deletion reports an error while a `DeleteSpace` of `i` runs. -/
def Event.deletionFails (i : UInt32) : Event → Bool
  | .command (.deleteSpace q) faults =>
    q.index = i && (faults .deleteSpace).contains .storageError
  | _ => false

/-- The space `i` has the stored state `s`, and nothing the recovery does loses it. -/
structure Durable (i : UInt32) (s : NvramSpace) (w : World) : Prop where
  stored : w.storage.space i = some s
  header : ∃ h, w.storage.header = some h ∧ i ∈ h.allocatedIndices
  manager : w.mgr.initialized = true → i ∈ w.mgr.indices

/-- The header of an initialized manager lists `i` when there is data for it. -/
structure Recorded (i : UInt32) (w : World) : Prop extends Listed w where
  listed : w.mgr.initialized = true → (w.storage.space i).isSome →
    ∃ h, w.storage.header = some h ∧ i ∈ h.allocatedIndices

open Storage

section

variable {b : Build} {faults : Faults} {m m' : NvramManager} {st st' : Storage} {i : UInt32}
  {s : NvramSpace} {req : Request}

/-- The recovery does not touch the data of an allocated space. -/
lemma Cleaned.space_eq {header : NvramHeader} (hf : ∀ c, .notFound ∉ faults c)
    (hmem : i ∈ header.allocatedIndices) (hi : (st.space i).isSome)
    (hc : Cleaned st faults header (recovered st faults header m).2 st') :
    st'.space i = st.space i := by
  generalize hd : (recovered st faults header m).2 = d at hc
  cases hc with
  | kept | missed => rfl
  | deleted j hj hp =>
    refine setSpace_other _ _ ?_
    rintro rfl
    have hseen := (recovered_deletes hp).mp (hd.trans hj) hmem
    rw [dataSeen_of_isSome hf hi] at hseen
    cases hseen

lemma Recovery.durable {w : World} {ok : Bool} (h : Durable i s w)
    (hf : ∀ c, .notFound ∉ faults c) (hr : Recovery faults w.mgr w.storage ok m' st') :
    Durable i s ⟨m', st'⟩ := by
  have hsome : (w.storage.space i).isSome := by rw [h.stored]; rfl
  obtain ⟨hd, hhd, hmem⟩ := h.header
  cases hr with
  | already | refused => exact h
  | blank _ hnone => exact absurd hhd (header_ne_of_blank hnone hf)
  | aborted header hinit =>
    exact ⟨h.stored, h.header, fun hne => absurd hne (recovered_not_initialized hinit)⟩
  | done header st1 _ hrec hclean =>
    rw [hrec.loaded] at hhd
    cases hhd
    refine ⟨?_, ⟨_, hclean.header.trans hrec.loaded, hmem⟩, fun _ => mem_recovered hf hmem hsome⟩
    exact (hclean.space_eq hf hmem hsome).trans h.stored
  | rewritten header st1 _ hrec hclean =>
    rw [hrec.loaded] at hhd
    cases hhd
    have hin := mem_recovered (m := w.mgr) hf hmem hsome
    refine ⟨?_, ⟨_, rfl, ?_⟩, fun _ => hin⟩
    · exact (hclean.space_eq hf hmem hsome).trans h.stored
    · rw [headerOf_allocated]
      exact hin

/-- A header written from a list that has `i`. -/
lemma listed_withHeader (st : Storage) {m1 : NvramManager} {p : Option UInt32}
    (hi : i ∈ m1.indices) :
    ∃ h, (st.withHeader (headerOf m1 p)).header = some h ∧ i ∈ h.allocatedIndices :=
  ⟨_, rfl, by rwa [headerOf_allocated]⟩

/-- A command on an initialized manager keeps a durable space, unless it updates,
deletes or wipes it, or half-deletes it. -/
lemma Effect.durable {r : Result} (h : Durable i s ⟨m, st⟩)
    (hinit : m.initialized) (hf : ∀ c, .notFound ∉ faults c)
    (hup : req.updates i → r ≠ .success) (hwipe : req ≠ .wipeStorage)
    (hdel : ∀ q, req = .deleteSpace q → q.index = i →
      r ≠ .success ∧ .storageError ∉ faults .deleteSpace)
    (he : Effect b faults m st req r m' st') : Durable i s ⟨m', st'⟩ := by
  have hin : i ∈ m.indices := h.manager hinit
  have hpush : ∀ j, i ∈ (m.push j).indices := mem_push hin
  cases he with
  | refused | query => exact h
  | createUnbacked q => exact ⟨h.stored, h.header, fun _ => hpush _⟩
  | createHalf q => exact ⟨h.stored, listed_withHeader st (hpush _), fun _ => hin⟩
  | create q =>
    have hne : i ≠ q.index := fun hq => hup (by simp [Request.updates, hq]) rfl
    exact ⟨(setSpace_other _ _ hne).trans h.stored, listed_withHeader st (hpush _),
      fun _ => hpush _⟩
  | deleteUndone q r hopen =>
    exact ⟨h.stored, h.header, fun _ => (readd_removeAt_perm hopen.entry).mem_iff.mpr hin⟩
  | deleteHalf q r hopen _ herr =>
    have hne : i ≠ q.index := fun hq => (hdel q rfl hq.symm).2 herr
    refine ⟨h.stored, listed_withHeader st ?_,
      fun _ => (readd_removeAt_perm hopen.entry).mem_iff.mpr hin⟩
    exact mem_removeAt hopen.entry hin (by rwa [hopen.transient_index])
  | delete q r hopen =>
    have hne : i ≠ q.index := fun hq => (hdel q rfl hq.symm).1 rfl
    have hin' := mem_removeAt hopen.entry hin (by rwa [hopen.transient_index])
    exact ⟨(setSpace_other _ _ hne).trans h.stored, listed_withHeader st hin', fun _ => hin'⟩
  | deleteMissed _ _ _ _ hn => exact absurd hn (hf _)
  | disableCreate => exact ⟨h.stored, ⟨_, rfl, by rwa [headerOf_allocated]⟩, fun _ => hin⟩
  | write q | lockWrite q =>
    have hne : i ≠ q.index := fun hq => hup (by simp [Request.updates, hq]) rfl
    exact ⟨(setSpace_other _ _ hne).trans h.stored, h.header, fun _ => hin⟩
  | lockWriteBoot | lockReadBoot =>
    exact ⟨h.stored, h.header, fun _ => mem_updateAt hin fun _ => rfl⟩
  | wipeHalf | wipeUnwritten | wipe => exact absurd rfl hwipe
  | disableWipe => exact ⟨h.stored, h.header, fun _ => hin⟩

lemma Torn.durable (h : Durable i s ⟨m, st⟩) (hinit : m.initialized)
    (hwipe : req ≠ .wipeStorage) (hdel : ∀ q, req = .deleteSpace q → q.index ≠ i)
    (ht : Torn b m st req st') : Durable i s ⟨{}, st'⟩ := by
  have hin : i ∈ m.indices := h.manager hinit
  cases ht with
  | same => exact ⟨h.stored, h.header, nofun⟩
  | create q =>
    exact ⟨h.stored, listed_withHeader st (mem_push hin _), nofun⟩
  | delete q r hopen =>
    refine ⟨h.stored, listed_withHeader st ?_, nofun⟩
    exact mem_removeAt hopen.entry hin (by rw [hopen.transient_index]; exact (hdel q rfl).symm)
  | wipe => exact absurd rfl hwipe

lemma RecoveryTorn.durable (h : Durable i s ⟨m, st⟩) (hf : ∀ c, .notFound ∉ faults c)
    (ht : RecoveryTorn faults m st st') : Durable i s ⟨{}, st'⟩ := by
  cases ht with
  | same => exact ⟨h.stored, h.header, nofun⟩
  | cleaned header _ hinit hrec hclean =>
    have hr : Recovery faults m st true _ st' := .done header st' hinit hrec hclean
    have hd := hr.durable h hf
    exact ⟨hd.stored, hd.header, nofun⟩

end

variable {i : UInt32} {w : World} {faults : Faults}

/-- **One event keeps a durable space**, unless it supersedes it or half-deletes it. -/
theorem step_durable (b : Build) {s : NvramSpace} (w : World) (e : Event) (h : Durable i s w)
    (hok : e.Faithful ∧ supersedes b i w e = false ∧ e.deletionFails i = false) :
    Durable i s (w.step b e) := by
  obtain ⟨hf, hsup, hdel⟩ := hok
  unfold supersedes at hsup
  cases e with
  | reboot => exact ⟨h.stored, h.header, nofun⟩
  | command req faults =>
    have hwipe : req ≠ .wipeStorage := by
      rintro rfl
      cases hsup
    refine w.step_command h (·.durable h hf) (·.durable h hf) (fun hr h1 hinit heff => ?_)
      fun hr h1 hinit ht => ?_
    · refine heff.durable h1 hinit hf (fun hup hsuccess => ?_) hwipe ?_
      · cases req <;> simp_all [Request.updates]
      · rintro q rfl hq
        simp_all [Event.deletionFails]
    · refine ht.durable h1 hinit hwipe ?_
      rintro q rfl hq
      simp_all

section

variable {b : Build} {faults : Faults} {m m' : NvramManager} {st st' : Storage} {i : UInt32}
  {ok : Bool} {req : Request}

lemma Recovery.recorded (h : Recorded i w)
    (hf : ∀ c, .notFound ∉ faults c) (hr : Recovery faults w.mgr w.storage ok m' st') :
    Recorded i ⟨m', st'⟩ := by
  refine ⟨hr.listed hf h.toListed, ?_⟩
  cases hr with
  | already | refused => exact h.listed
  | blank _ hnone =>
    intro _ hi
    obtain ⟨hd, hhd, _⟩ := h.header i hi
    exact absurd hhd (header_ne_of_blank hnone hf)
  | aborted header hinit =>
    exact fun hne => absurd hne (recovered_not_initialized hinit)
  | done header st1 _ hrec hclean =>
    intro _ hi
    exact ⟨_, hclean.header.trans hrec.loaded, (h.toListed.cleaned hf hrec hclean hi).1⟩
  | rewritten header st1 _ hrec hclean =>
    exact fun _ hi => listed_withHeader st1 (h.toListed.cleaned hf hrec hclean hi).2

lemma Effect.recorded {r : Result} (h : Recorded i ⟨m, st⟩)
    (hinit : m.initialized) (hf : ∀ c, .notFound ∉ faults c)
    (hdel : ∀ q, req = .deleteSpace q → q.index = i → .storageError ∉ faults .deleteSpace)
    (he : Effect b faults m st req r m' st') : Recorded i ⟨m', st'⟩ := by
  refine ⟨he.listed h.toListed hinit hf, ?_⟩
  have hheld : (st.space i).isSome → i ∈ m.indices := h.manager hinit i
  have hlist := h.listed hinit
  intro _ hi
  cases he with
  | refused | query | createUnbacked | deleteUndone | lockWriteBoot | lockReadBoot | disableWipe =>
    exact hlist hi
  | createHalf q =>
    exact listed_withHeader st (mem_push (hheld hi) _)
  | create q =>
    refine listed_withHeader st ?_
    rw [push_indices]
    rw [setSpace_space] at hi
    split at hi
    · rename_i hq
      exact mem_append_right _ (by simp [hq])
    · exact mem_append_left _ (hheld hi)
  | deleteHalf q r hopen _ herr =>
    have hne : i ≠ q.index := fun hq => hdel q rfl hq.symm herr
    exact listed_withHeader st
      (mem_removeAt hopen.entry (hheld hi) (by rwa [hopen.transient_index]))
  | delete q r hopen =>
    obtain ⟨hne, hi'⟩ := isSome_of_setSpace_none hi
    exact listed_withHeader st
      (mem_removeAt hopen.entry (hheld hi') (by rwa [hopen.transient_index]))
  | deleteMissed _ _ _ _ hn => exact absurd hn (hf _)
  | disableCreate => exact ⟨_, rfl, by rw [headerOf_allocated]; exact hheld hi⟩
  | write _ _ _ hopen | lockWrite _ _ hopen => exact hlist (isSome_of_overwritten hopen.stored hi)
  | wipeHalf | wipeUnwritten => exact hlist (isSome_of_wiped hi).2
  | wipe done _ hall =>
    obtain ⟨hnot, hi'⟩ := isSome_of_wiped hi
    exact absurd (hall.resolve_right (hf _) (hheld hi')) hnot

/-- The recovery leaves the data of a space as it is, or removes it. -/
lemma Recovery.space_eq (hr : Recovery faults m st ok m' st')
    (hi : (st'.space i).isSome) : st'.space i = st.space i := by
  have hclean : ∀ {header : NvramHeader} {d : Bool} {st1 : Storage},
      Cleaned st faults header d st1 → (st1.space i).isSome → st1.space i = st.space i := by
    intro header d st1 hc hi
    cases hc with
    | kept | missed => rfl
    | deleted j => exact setSpace_other _ _ (isSome_of_setSpace_none hi).1
  cases hr with
  | already | refused | blank | aborted => rfl
  | done _ _ _ _ hc => exact hclean hc hi
  | rewritten _ st1 _ _ hc =>
    have heq : st1.space i = st.space i := hclean hc hi
    exact heq

/-- The list after a recovery from an empty one fits the array. -/
lemma Recovery.bounded (hr : Recovery faults m st true m' st')
    (hm : m.indices.length ≤ 0) : m'.indices.length ≤ kMaxSpaces := by
  have hnil : m.indices = [] := eq_nil_of_length_eq_zero (Nat.le_zero.mp hm)
  have hlen : ∀ header : NvramHeader, Recovers st faults header →
      (recovered st faults header m).1.indices.length ≤ kMaxSpaces := by
    intro header hrec
    rw [recovered_indices, hnil]
    exact le_trans (length_filter_le _ _) hrec.bounded
  cases hr with
  | already | blank => exact Nat.le_trans hm zero_le
  | done header _ _ hrec | rewritten header _ _ hrec => exact hlen header hrec

lemma Opens.isSome {r : SpaceRecord} (h : Opens m st i r) : (st.space i).isSome := by
  rw [h.stored]
  rfl

/-- **An acknowledged update is durable from the moment it is acknowledged.** -/
theorem Effect.acknowledges (h : Recorded i ⟨m, st⟩) (hinit : m.initialized) (hup : req.updates i)
    (he : Effect b faults m st req .success m' st') :
    ∃ s, acknowledged b (st.space i) req = some s ∧ Durable i s ⟨m', st'⟩ ∧
      ((st.space i).isSome ∨ acknowledged b none req = some s) := by
  cases he with
  | refused _ _ hne => exact absurd rfl hne
  | query _ _ hq => cases req <;> simp_all [Request.updates, Request.isQuery]
  | create q =>
    obtain rfl : q.index = i := of_decide_eq_true hup
    have hin : q.index ∈ (m.push q.index).indices := by
      rw [push_indices]
      exact mem_append_right _ (by simp)
    exact ⟨newSpace b q, rfl, ⟨by simp, listed_withHeader st hin, fun _ => hin⟩, .inr rfl⟩
  | write q r contents hopen _ hwc =>
    obtain rfl : q.index = i := of_decide_eq_true hup
    have hsome := hopen.isSome
    refine ⟨{ r.persistent with contents }, ?_, ?_, .inl hsome⟩
    · simp [acknowledged, hopen.stored, hwc]
    · exact ⟨by simp, h.listed hinit hsome, fun _ => hopen.mem_indices⟩
  | lockWrite q r hopen _ hp =>
    obtain rfl : q.index = i := of_decide_eq_true hup
    have hsome := hopen.isSome
    refine ⟨r.persistent.setFlag NvramSpace.kFlagWriteLocked, ?_, ?_, .inl hsome⟩
    · simp [acknowledged, hopen.stored, hp]
    · exact ⟨by simp, h.listed hinit hsome, fun _ => hopen.mem_indices⟩
  | lockWriteBoot q r hopen _ hp =>
    obtain rfl : q.index = i := of_decide_eq_true hup
    have hsome := hopen.isSome
    refine ⟨r.persistent, ?_, ⟨hopen.stored, h.listed hinit hsome, fun _ => ?_⟩, .inl hsome⟩
    · simp [acknowledged, hopen.stored, hp]
    · exact mem_updateAt hopen.mem_indices fun _ => rfl
  | delete | deleteMissed | disableCreate | lockReadBoot | wipe | disableWipe => cases hup

end

/-- One event keeps the record of space `i`, unless it half-deletes it. -/
lemma step_recorded (b : Build) (w : World) (e : Event) (h : Recorded i w)
    (hok : e.Faithful ∧ e.deletionFails i = false) : Recorded i (w.step b e) := by
  obtain ⟨hf, hdel⟩ := hok
  cases e with
  | reboot => exact ⟨step_listed b w _ h.toListed hf, nofun⟩
  | command req faults =>
    refine w.step_command h (·.recorded h hf) (fun ht => ⟨ht.listed h.toListed, nofun⟩)
      (fun _ h1 hinit heff => ?_) fun _ h1 hinit ht => ⟨ht.listed h1.toListed hinit, nofun⟩
    refine heff.recorded h1 hinit hf ?_
    rintro q rfl hq
    simp_all [Event.deletionFails]

/-- An acknowledged update of space `i` makes it durable in the acknowledged state. -/
lemma step_acknowledges (b : Build) {req : Request}
    (h : Recorded i w) (hf : ∀ c, .notFound ∉ faults c) (hup : req.updates i)
    (hres : w.result b (.command req faults) = some .success) :
    ∃ s, acknowledged b (w.storage.space i) req = some s ∧
      Durable i s (w.step b (.command req faults)) := by
  obtain ⟨m1, st1, m, st, hw, hrec, heff⟩ := World.ran_of_success hres
  rw [hw]
  obtain ⟨s, hs, hd, hold⟩ := heff.acknowledges (hrec.recorded h hf) hrec.initialized hup
  refine ⟨s, ?_, hd⟩
  rcases hold with hi | hnone
  · rwa [← hrec.space_eq hi]
  · cases req <;> simp_all [acknowledged]

/-- Restart the device and initialize the manager. -/
def World.recover (w : World) (faults : Faults) : Option Bool × Machine :=
  initializeManager { mgr := {}, storage := w.storage, faults := faults }

lemma World.recover_recovery {ok : Bool} (h : (w.recover faults).1 = some ok) :
    Recovery faults {} w.storage ok (w.recover faults).2.mgr (w.recover faults).2.storage := by
  have hrun : w.recover faults = (some ok, (w.recover faults).2) := Prod.ext h rfl
  exact (CrashProg.wp_some (initializeManager_wp _) hrun).1

/-- **Durability.** Suppose an update of space `i` is acknowledged, no deletion of `i`
ever fails at its data, no recovery breaks off, and after the update nothing supersedes it.  Then no
entry is written behind the array, and every later recovery that succeeds finds `i` with exactly the
acknowledged state. -/
theorem acknowledged_survives (b : Build) (i : UInt32) (before after : List Event)
    (req : Request) (faults : Faults) (hup : req.updates i = true)
    (hres : (run b before).result b (.command req faults) = some .success)
    (hbefore : ∀ e ∈ before, e.Faithful ∧ e.deletionFails i = false)
    (hfaults : ∀ c, .notFound ∉ faults c)
    (hafter : EachStep
      (fun w e => e.Faithful ∧ supersedes b i w e = false ∧ e.deletionFails i = false)
      (World.step b) (run b (before ++ [.command req faults])) after)
    (hok : EachStep (fun w e => breaksOff w e = false) (World.step b) {}
      (before ++ .command req faults :: after))
    (restart : Faults) (hrestart : ∀ c, .notFound ∉ restart c)
    (hinit : ((run b (before ++ .command req faults :: after)).recover restart).1 = some true) :
    (run b (before ++ .command req faults :: after)).mgr.overrun = false ∧
    ∃ s, acknowledged b ((run b before).storage.space i) req = some s ∧
      findSpace ((run b (before ++ .command req faults :: after)).recover restart).2.mgr i ≠
        kMaxSpaces ∧
      ((run b (before ++ .command req faults :: after)).recover restart).2.storage.space i =
        some s := by
  refine ⟨(run_inBounds b _ hok).inside, ?_⟩
  have hblank : Recorded i {} := ⟨⟨nofun, nofun⟩, nofun⟩
  have hrecorded : Recorded i (run b before) :=
    foldSteps_inv (step_recorded b) before {} hblank (eachStep_of_forall before _ hbefore)
  obtain ⟨s, hs, hdurable⟩ := step_acknowledges b hrecorded hfaults hup hres
  -- from the acknowledgement on, the space stays durable
  have hrun : run b (before ++ .command req faults :: after) =
      after.foldl (World.step b) ((run b before).step b (.command req faults)) := by
    unfold run
    rw [foldl_append, foldl_cons]
  have hstart : run b (before ++ [.command req faults]) =
      (run b before).step b (.command req faults) := by
    unfold run
    rw [foldl_append]
    rfl
  rw [hstart] at hafter
  have hend := foldSteps_inv (step_durable b) after _ hdurable hafter
  rw [← hrun] at hend
  have hrec := World.recover_recovery hinit
  have hfinal := hrec.durable (w := World.reboot _) ⟨hend.stored, hend.header, nofun⟩ hrestart
  refine ⟨s, hs, ?_, hfinal.stored⟩
  exact findSpace_ne_max (hfinal.manager hrec.initialized) (hrec.bounded zero_le)

/-- Space 1, one byte. -/
def sampleSpace : Request :=
  .createSpace { index := 1, size := 1, controls := [], authorizationValue := [] }

/-- Write one byte to space 1. -/
def sampleWrite (byte : UInt8) : Request :=
  .writeSpace { index := 1, buffer := [byte], authorizationValue := [] }

/-- A write to space 1, and what follows it: a deletion of another space that fails at
its data, and a restart. -/
def writtenThenRestarted : List Event :=
  [.command (sampleCreate 2) Faults.none,
   .command (.deleteSpace { index := 2 }) (failing .deleteSpace [.storageError]), .reboot]

theorem acknowledged_survives_write :
    ((run sampleBuild ([.command sampleSpace Faults.none] ++
        .command (sampleWrite 7) Faults.none :: writtenThenRestarted)).recover
          Faults.none).1 = some true ∧
      ∃ s, acknowledged sampleBuild
          ((run sampleBuild [.command sampleSpace Faults.none]).storage.space 1)
          (sampleWrite 7) = some s ∧
        findSpace ((run sampleBuild ([.command sampleSpace Faults.none] ++
          .command (sampleWrite 7) Faults.none :: writtenThenRestarted)).recover
            Faults.none).2.mgr 1 ≠ kMaxSpaces ∧
        ((run sampleBuild ([.command sampleSpace Faults.none] ++
          .command (sampleWrite 7) Faults.none :: writtenThenRestarted)).recover
            Faults.none).2.storage.space 1 = some s := by
  have hnone : ∀ c, .notFound ∉ Faults.none c := by simp [Faults.none]
  refine ⟨by decide, ?_⟩
  refine (acknowledged_survives sampleBuild 1 [.command sampleSpace Faults.none]
    writtenThenRestarted (sampleWrite 7) Faults.none (by decide) (by decide) ?_ hnone ?_ (by decide)
    Faults.none hnone (by decide)).2
  · intro e he
    rw [mem_singleton] at he
    subst he
    exact ⟨hnone, rfl⟩
  · refine ⟨⟨hnone, by decide, by decide⟩, ⟨?_, by decide, by decide⟩,
      ⟨trivial, by decide, by decide⟩, trivial⟩
    intro c
    cases c <;> simp [failing]

/-- Space 1 is created, and its deletion stores the header without it but then fails
at the data. -/
def halfDeleted : List Event :=
  [.command sampleSpace Faults.none,
   .command (.deleteSpace { index := 1 }) (failing .deleteSpace [.storageError])]

/-- **A failed deletion loses a later write.** The manager has taken the half-deleted
space back in memory and acknowledges a write to it.  After a restart the recovery
succeeds, and it deletes the space. -/
theorem failed_delete_loses_write :
    (run sampleBuild halfDeleted).result sampleBuild (.command (sampleWrite 7) Faults.none) =
        some .success ∧
      ((run sampleBuild (halfDeleted ++ [.command (sampleWrite 7) Faults.none, .reboot])).recover
        Faults.none).1 = some true ∧
      ((run sampleBuild (halfDeleted ++ [.command (sampleWrite 7) Faults.none, .reboot])).recover
        Faults.none).2.storage.space 1 = none := by
  decide

end Nvram
