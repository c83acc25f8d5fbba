import AlpsSystem.Lib.Runs
import AlpsSystem.Nvram.SpaceList

/-!
# Bookkeeping of the NVRAM manager

The array `spaces_` has `kMaxSpaces` slots, and no index may sit in two of them.
Storage calls and allocations fail at will here, `kNotFound` may be reported for
data that is there, and commands may be cut short.

* `run_booked` — it holds in every state of a run in which no recovery breaks off
  (`breaksOff`) after it has entered a space.
-/

namespace Nvram

open Runs (EachStep foldSteps_inv)

open List

/-- The bookkeeping invariant. -/
structure Booked (w : World) : Prop where
  fresh : w.mgr.initialized = false → w.mgr.indices = []
  nodup : w.mgr.indices.Nodup
  bounded : w.mgr.indices.length ≤ kMaxSpaces
  header : ∀ h, w.storage.header = some h →
    h.allocatedIndices.Nodup ∧ h.allocatedIndices.length ≤ kMaxSpaces

/-- The recovery of this event fails to delete the provisional space `i` after it
has entered another one: the header is read and accepted, the loop enters an index
other than `i` and leaves `i` to be deleted, and the deletion reports an error. -/
def breaksOff (w : World) : Event → Bool
  | .reboot => false
  | .command _ faults =>
    match w.storage.header with
    | none => false
    | some h =>
      match h.provisionalIndex with
      | none => false
      | some i =>
        !w.mgr.initialized && (faults .loadHeader).headD .served = .served &&
          h.version ≤ NvramHeader.kVersion && h.allocatedIndices.length ≤ kMaxSpaces &&
          (!(h.allocatedIndices.contains i) || !dataSeen w.storage faults i) &&
          h.allocatedIndices.any (· ≠ i) &&
          (faults .deleteSpace).headD .served = .storageError

section

variable {b : Build} {faults : Faults} {m m' : NvramManager} {st st' : Storage} {req : Request}
  {w : World}

/-- Written headers list what the manager holds. -/
lemma Booked.headerOf (m1 : NvramManager) {p : Option UInt32} (hn : m1.indices.Nodup)
    (hb : m1.indices.length ≤ kMaxSpaces) {h : NvramHeader} (hh : some (headerOf m1 p) = some h) :
    h.allocatedIndices.Nodup ∧ h.allocatedIndices.length ≤ kMaxSpaces := by
  rw [← Option.some.inj hh, headerOf_allocated]
  exact ⟨hn, hb⟩

/-- Deleting the provisional space keeps the header. -/
lemma Cleaned.header {header : NvramHeader} {deletes : Bool}
    (h : Cleaned st faults header deletes st') : st'.header = st.header := by
  cases h with
  | kept | deleted | missed => rfl

/-- The entries of a recovery that starts from an empty list. -/
lemma recovered_booked (st : Storage) (faults : Faults) {header : NvramHeader} (hm : m.indices = [])
    (hn : header.allocatedIndices.Nodup) (hb : header.allocatedIndices.length ≤ kMaxSpaces) :
    (recovered st faults header m).1.indices.Nodup ∧
      (recovered st faults header m).1.indices.length ≤ kMaxSpaces := by
  rw [recovered_indices, hm]
  exact ⟨hn.filter _, (length_filter_le _ _).trans hb⟩

/-- A recovery that fails at the deletion either breaks off or has entered nothing. -/
lemma recovered_nil {header : NvramHeader}
    (hinit : w.mgr.initialized = false) (hm : w.mgr.indices = [])
    (hrec : Recovers w.storage faults header)
    (hdel : (recovered w.storage faults header w.mgr).2)
    (herr : (faults .deleteSpace).headD .served = .storageError)
    (hok : breaksOff w (.command req faults) = false) :
    (recovered w.storage faults header w.mgr).1.indices = [] := by
  rw [recovered_indices, hm, nil_append, filter_eq_nil_iff]
  intro j hj hent
  cases hp : header.provisionalIndex with
  | none =>
    have hkeep : (recovered w.storage faults header w.mgr).2 = false :=
      recovered_keeps fun i hi => by rw [hp] at hi; cases hi
    rw [hkeep] at hdel
    cases hdel
  | some i =>
    rw [recovered_deletes hp] at hdel
    have hleft : (!(header.allocatedIndices.contains i) || !dataSeen w.storage faults i) := by
      by_cases hi : i ∈ header.allocatedIndices
      · simp [hdel hi]
      · simp [hi]
    have hall : ∀ x ∈ header.allocatedIndices, x = i := by
      unfold breaksOff at hok
      simp only [hrec.loaded, hp, hinit, hrec.served, hrec.version, hrec.bounded, herr,
        hleft] at hok
      simpa using hok
    obtain rfl : j = i := hall j hj
    -- the loop enters a provisional space only when its data was seen
    have hseen : provisionalSeen w.storage faults header = dataSeen w.storage faults j := by
      unfold provisionalSeen
      rw [hp]
    simp [entered, hp, hseen, hdel hj] at hent

lemma Recovery.booked {ok : Bool} (h : Booked w) (hok : breaksOff w (.command req faults) = false)
    (hr : Recovery faults w.mgr w.storage ok m' st') :
    Booked ⟨m', st'⟩ := by
  cases hr with
  | already | refused => exact h
  | blank => exact ⟨nofun, h.nodup, h.bounded, h.header⟩
  | aborted header hinit hrec hdel herr =>
    have hnil := recovered_nil hinit (h.fresh hinit) hrec hdel herr hok
    refine ⟨fun _ => hnil, ?_, ?_, h.header⟩
    · rw [hnil]
      exact nodup_nil
    · rw [hnil]
      exact zero_le
  | done header _ hinit hrec hclean =>
    obtain ⟨hn, hb⟩ := recovered_booked w.storage faults (h.fresh hinit)
      (h.header header hrec.loaded).1 (h.header header hrec.loaded).2
    refine ⟨nofun, hn, hb, ?_⟩
    intro h' hh'
    rw [hclean.header] at hh'
    exact h.header h' hh'
  | rewritten header _ hinit hrec hclean =>
    obtain ⟨hn, hb⟩ := recovered_booked w.storage faults (h.fresh hinit)
      (h.header header hrec.loaded).1 (h.header header hrec.loaded).2
    exact ⟨nofun, hn, hb, fun h' hh' => Booked.headerOf (NvramManager.opened _ header) hn hb hh'⟩

/-- The list holds no index twice, and there is room for it. -/
def Tidy (m : NvramManager) : Prop := m.indices.Nodup ∧ m.indices.length ≤ kMaxSpaces

/-- The bookkeeping of an initialized manager after a command. -/
lemma Effect.booked {r : Result} (h : Booked ⟨m, st⟩)
    (hinit : m.initialized) (he : Effect b faults m st req r m' st') : Booked ⟨m', st'⟩ := by
  -- a manager with the same indices, up to order, over a storage with the same or a new header
  have hperm : ∀ (m1 : NvramManager) (st1 : Storage), m1.initialized →
      m1.indices.Perm m.indices → st1.header = st.header → Booked ⟨m1, st1⟩ := by
    intro m1 st1 hi hp hh
    refine ⟨fun hne => by simp [hi] at hne, hp.nodup_iff.mpr h.nodup, ?_, ?_⟩
    · rw [hp.length_eq]
      exact h.bounded
    · intro h' hh'
      rw [hh] at hh'
      exact h.header h' hh'
  have hwritten : ∀ (m1 m2 : NvramManager) (st1 : Storage) (p : Option UInt32),
      m1.initialized → Tidy m1 → Tidy m2 → st1.header = some (headerOf m2 p) →
      Booked ⟨m1, st1⟩ := by
    intro m1 m2 st1 p hi h1 h2 hh
    refine ⟨fun hne => by simp [hi] at hne, h1.1, h1.2, ?_⟩
    intro h' hh'
    exact Booked.headerOf m2 h2.1 h2.2 (hh ▸ hh')
  have hpush : ∀ q, checkCreate b m q = none → Tidy (m.push q.index) := by
    intro q hc
    obtain ⟨hnot, hlt⟩ := not_mem_of_checkCreate hc
    rw [Tidy, push_indices]
    refine ⟨nodup_append.mpr ⟨h.nodup, by simp, ?_⟩, ?_⟩
    · intro a ha c hc' hac
      rw [mem_singleton] at hc'
      exact hnot (hc' ▸ hac ▸ ha)
    · rw [length_append, indices_length]
      exact hlt
  have hremove : ∀ (q : SpaceRequest) (r : SpaceRecord), Opens m st q.index r →
      Tidy (m.removeAt r.arrayIndex) := by
    intro q r hopen
    have hp := removeAt_perm hopen.entry
    refine ⟨(nodup_cons.mp (hp.nodup_iff.mpr h.nodup)).2, ?_⟩
    have hlen := hp.length_eq
    have hb : m.indices.length ≤ kMaxSpaces := h.bounded
    rw [length_cons] at hlen
    omega
  cases he with
  | refused | query => exact h
  | createUnbacked q _ hc =>
    exact ⟨fun hne => by simp [hinit] at hne, (hpush q hc).1, (hpush q hc).2, h.header⟩
  | createHalf q _ hc =>
    exact hwritten m _ _ _ hinit ⟨h.nodup, h.bounded⟩ (hpush q hc) rfl
  | create q _ hc =>
    exact hwritten _ _ _ _ hinit (hpush q hc) (hpush q hc) rfl
  | deleteUndone q r hopen =>
    exact hperm _ _ (by simpa using hinit) (readd_removeAt_perm hopen.entry) rfl
  | deleteHalf q r hopen =>
    have hp := readd_removeAt_perm hopen.entry
    exact hwritten _ _ _ _ (by simpa using hinit)
      ⟨hp.nodup_iff.mpr h.nodup, hp.length_eq ▸ h.bounded⟩ (hremove q r hopen) rfl
  | delete q r hopen | deleteMissed q r hopen =>
    exact hwritten _ _ _ _ (by simpa using hinit) (hremove q r hopen) (hremove q r hopen) rfl
  | disableCreate =>
    exact hwritten _ { m with disableCreate := true } _ _ hinit ⟨h.nodup, h.bounded⟩
      ⟨h.nodup, h.bounded⟩ rfl
  | write | lockWrite | wipeHalf | disableWipe => exact hperm _ _ hinit (List.Perm.refl _) rfl
  | lockWriteBoot _ r | lockReadBoot _ r =>
    exact hperm _ _ hinit (List.Perm.of_eq (updateAt_indices m r.arrayIndex fun _ => rfl)) rfl
  | wipeUnwritten =>
    exact ⟨fun _ => rfl, List.nodup_nil, zero_le, h.header⟩
  | wipe =>
    exact hwritten _ { m with spaces := [] } _ _ hinit ⟨List.nodup_nil, zero_le⟩
      ⟨List.nodup_nil, zero_le⟩ rfl

/-- A crash leaves the old header, or the one the command was writing. -/
lemma Torn.booked (h : Booked ⟨m, st⟩) (hinit : m.initialized)
    (ht : Torn b m st req st') : Booked ⟨{}, st'⟩ := by
  refine ⟨fun _ => rfl, List.nodup_nil, zero_le, ?_⟩
  cases ht with
  | same | wipe => exact h.header
  | create q hd hc =>
    have he : Effect b Faults.none m st _ _ _ _ := .create q hd hc
    exact (he.booked h hinit).header
  | delete q r hopen ha =>
    have he : Effect b Faults.none m st _ _ _ _ := .delete q r hopen ha
    exact (he.booked h hinit).header

lemma RecoveryTorn.booked (h : Booked ⟨m, st⟩) (ht : RecoveryTorn faults m st st') :
    Booked ⟨{}, st'⟩ := by
  refine ⟨fun _ => rfl, List.nodup_nil, zero_le, ?_⟩
  cases ht with
  | same => exact h.header
  | cleaned header _ _ _ hclean =>
    intro h' hh'
    rw [hclean.header] at hh'
    exact h.header h' hh'

end

/-- One event keeps the bookkeeping, unless its recovery breaks off. -/
lemma step_booked (b : Build) (w : World) (e : Event) (h : Booked w)
    (hok : breaksOff w e = false) : Booked (w.step b e) := by
  cases e with
  | reboot => exact ⟨fun _ => rfl, List.nodup_nil, zero_le, h.header⟩
  | command req faults =>
    refine w.step_command h (·.booked h hok) (·.booked h) ?_ ?_
    · exact fun _ h1 hinit heff => heff.booked h1 hinit
    · exact fun _ h1 hinit ht => ht.booked h1 hinit

/-- The bookkeeping, and no entry was written behind the end of the array. -/
structure InBounds (w : World) : Prop extends Booked w where
  inside : w.mgr.overrun = false

section

variable {b : Build} {faults : Faults} {m m' : NvramManager} {st st' : Storage} {req : Request}
  {w : World} {r : Result}

/-- The commands write inside the array. -/
lemma Effect.overrun_eq (he : Effect b faults m st req r m' st') : m'.overrun = m.overrun := by
  cases he with
  | deleteUndone | deleteHalf | delete | deleteMissed => exact removeAt_overrun m _
  | _ => rfl

/-- The loop of a recovery from an empty list ends inside the array. -/
lemma recovered_overrun {header : NvramHeader} (hm : m.overrun = false)
    (hb : (recovered st faults header m).1.indices.length ≤ kMaxSpaces) :
    (recovered st faults header m).1.overrun = false := by
  have hloop : (initLoop header.provisionalIndex (provisionalSeen st faults header)
      header.allocatedIndices m header.provisionalIndex.isSome).1.overrun = false :=
    (initLoop_frame _ _ _ _ _).2.trans hm
  rw [indices_length] at hb
  exact Bool.or_eq_false_iff.mpr ⟨hloop, decide_eq_false (Nat.not_lt.mpr hb)⟩

lemma Recovery.inBounds {ok : Bool} (h : InBounds w)
    (hok : breaksOff w (.command req faults) = false)
    (hr : Recovery faults w.mgr w.storage ok m' st') : InBounds ⟨m', st'⟩ := by
  have hbooked := hr.booked h.toBooked hok
  refine ⟨hbooked, ?_⟩
  cases hr with
  | already | refused | blank => exact h.inside
  | aborted | done | rewritten => exact recovered_overrun h.inside hbooked.bounded

end

/-- One event keeps the entries inside the array, unless its recovery breaks off. -/
lemma step_inBounds (b : Build) (w : World) (e : Event) (h : InBounds w)
    (hok : breaksOff w e = false) : InBounds (w.step b e) := by
  cases e with
  | reboot => exact ⟨step_booked b w .reboot h.toBooked hok, rfl⟩
  | command req faults =>
    refine w.step_command h (·.inBounds h hok) (fun ht => ⟨ht.booked h.toBooked, rfl⟩) ?_ ?_
    · exact fun _ h1 hinit heff =>
        ⟨heff.booked h1.toBooked hinit, heff.overrun_eq.trans h1.inside⟩
    · exact fun _ h1 hinit ht => ⟨ht.booked h1.toBooked hinit, rfl⟩

lemma run_inBounds (b : Build) (events : List Event)
    (hok : EachStep (fun w e => breaksOff w e = false) (World.step b) {} events) :
    InBounds (run b events) :=
  foldSteps_inv (step_inBounds b) events {}
    ⟨⟨fun _ => rfl, List.nodup_nil, zero_le, fun h hh => by cases hh⟩, rfl⟩ hok

/-- **Bookkeeping.** In every state of a run in which no recovery breaks off, the
array has room for the spaces and no index occurs twice. -/
theorem run_booked (b : Build) (events : List Event)
    (hok : EachStep (fun w e => breaksOff w e = false) (World.step b) {} events) :
    (run b events).mgr.spaces.length ≤ kMaxSpaces ∧ (run b events).mgr.indices.Nodup := by
  have h := run_inBounds b events hok
  exact ⟨indices_length _ ▸ h.bounded, h.nodup⟩

/-- A build in which the controls have the numbers one to six. -/
def sampleBuild : Build where
  controlPersistentWriteLock := 1
  controlBootWriteLock := 2
  controlBootReadLock := 3
  controlWriteAuthorization := 4
  controlReadAuthorization := 5
  controlWriteExtend := 6
  wipeStorageSupport := true
  sha256 := fun data => data

/-- Create an empty space with the given index. -/
def sampleCreate (index : UInt32) : Request :=
  .createSpace { index := index, size := 0, controls := [], authorizationValue := [] }

/-- The calls of one kind have the listed outcomes, all others are served. -/
def failing (c : Call) (outcomes : List Outcome) : Faults :=
  fun c' => if c' = c then outcomes else []

/-- Two spaces are created, the data of the second one does not reach the storage,
and the device restarts. -/
def halfCreated : List Event :=
  [.command (sampleCreate 1) Faults.none,
   .command (sampleCreate 2) (failing .storeSpace [.storageError]), .reboot]

/-- The recovery after `halfCreated`, with no further failure. -/
def halfCreatedRecovered : List Event := halfCreated ++ [.command .getInfo Faults.none]

theorem run_booked_recovered :
    EachStep (fun w e => breaksOff w e = false) (World.step sampleBuild) {} halfCreatedRecovered ∧
      (run sampleBuild halfCreatedRecovered).mgr.spaces.length ≤ kMaxSpaces ∧
      (run sampleBuild halfCreatedRecovered).mgr.indices.Nodup :=
  ⟨by decide, run_booked sampleBuild halfCreatedRecovered (by decide)⟩

/-- The recovery after `halfCreated` breaks off at the deletion of space 2, and the
retry enters space 1 a second time. -/
theorem broken_recovery_duplicates :
    ¬ (run sampleBuild (halfCreated ++ [.command .getInfo (failing .deleteSpace [.storageError]),
       .command .getInfo Faults.none])).mgr.indices.Nodup := by
  decide

end Nvram
