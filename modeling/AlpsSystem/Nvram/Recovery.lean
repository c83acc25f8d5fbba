import AlpsSystem.Nvram.Manager

/-!
# What the recovery of the NVRAM manager can do

`Initialize` runs at the start of every command until it succeeds.  Its possible
changes to the manager and to the storage are listed once, as a relation, together
with the storage states a crash in the middle of it can leave.
-/

namespace Nvram

open CrashProg (wp wp_bind wp_pure wp_ite wp_mono)

/-! ## Storage states -/

/-- The storage with a new header. -/
def Storage.withHeader (st : Storage) (header : NvramHeader) : Storage :=
  { st with header := some header }

/-- The storage without the data of the listed spaces. -/
def Storage.wiped (st : Storage) (done : List UInt32) : Storage :=
  { st with space := fun i => if i ∈ done then none else st.space i }

lemma wiped_space (st : Storage) (done : List UInt32) (i : UInt32) :
    (st.wiped done).space i = if i ∈ done then none else st.space i := rfl

lemma wiped_nil (st : Storage) : st.wiped [] = st := by
  simp [Storage.wiped]

lemma wiped_setSpace (st : Storage) (done : List UInt32) (i : UInt32) :
    (st.wiped done).setSpace i none = st.wiped (i :: done) := by
  unfold Storage.wiped Storage.setSpace
  simp only [Storage.mk.injEq, true_and]
  funext j
  by_cases hj : j = i <;> simp [hj]

/-! ## Recovery -/

/-- The header the recovery works from: it could be loaded and it is not refused. -/
structure Recovers (st : Storage) (faults : Faults) (header : NvramHeader) : Prop where
  loaded : st.header = some header
  served : (faults .loadHeader).headD .served = .served
  version : header.version ≤ NvramHeader.kVersion
  bounded : header.allocatedIndices.length ≤ kMaxSpaces

/-- What `Initialize` sees of the data of the space `index`. -/
def dataSeen (st : Storage) (faults : Faults) (index : UInt32) : Bool :=
  match (faults .loadSpace).headD .served with
  | .served => (st.space index).isSome
  | .notFound => false
  | _ => true

/-- What `Initialize` sees of the data of the provisional space. -/
def provisionalSeen (st : Storage) (faults : Faults) (header : NvramHeader) : Bool :=
  match header.provisionalIndex with
  | none => false
  | some index => dataSeen st faults index

/-- The manager and the deletion flag after the loop of `Initialize`. -/
def recovered (st : Storage) (faults : Faults) (header : NvramHeader) (m : NvramManager) :
    NvramManager × Bool :=
  (initLoop header.provisionalIndex (provisionalSeen st faults header) header.allocatedIndices m
    header.provisionalIndex.isSome).map NvramManager.noteOverrun id

/-- The manager when `Initialize` is done. -/
def NvramManager.opened (m : NvramManager) (header : NvramHeader) : NvramManager :=
  { m with
    disableCreate := header.hasFlag NvramHeader.kFlagDisableCreate
    initialized := true }

/-- The storage after the deletion step of the recovery: the provisional space is
gone, or a deletion that reported `kNotFound` was taken for done. -/
inductive Cleaned (st : Storage) (faults : Faults) (header : NvramHeader) (deletes : Bool) :
    Storage → Prop where
  | kept : deletes = false → Cleaned st faults header deletes st
  | deleted (index : UInt32) : deletes = true → header.provisionalIndex = some index →
      Cleaned st faults header deletes (st.setSpace index none)
  | missed (index : UInt32) : deletes = true → header.provisionalIndex = some index →
      .notFound ∈ faults .deleteSpace → Cleaned st faults header deletes st

/-- What `Initialize` can do, with its return value. -/
inductive Recovery (faults : Faults) (m : NvramManager) (st : Storage) :
    Bool → NvramManager → Storage → Prop where
  | already : m.initialized = true → Recovery faults m st true m st
  | refused : m.initialized = false → Recovery faults m st false m st
  | blank : m.initialized = false → (st.header = none ∨ .notFound ∈ faults .loadHeader) →
      Recovery faults m st true { m with initialized := true } st
  | aborted (header : NvramHeader) : m.initialized = false → Recovers st faults header →
      (recovered st faults header m).2 = true →
      (faults .deleteSpace).headD .served = .storageError →
      Recovery faults m st false (recovered st faults header m).1 st
  | done (header : NvramHeader) (st₁ : Storage) : m.initialized = false →
      Recovers st faults header → Cleaned st faults header (recovered st faults header m).2 st₁ →
      Recovery faults m st true ((recovered st faults header m).1.opened header) st₁
  | rewritten (header : NvramHeader) (st₁ : Storage) : m.initialized = false →
      Recovers st faults header → Cleaned st faults header (recovered st faults header m).2 st₁ →
      header.provisionalIndex.isSome = true →
      Recovery faults m st true ((recovered st faults header m).1.opened header)
        (st₁.withHeader (headerOf ((recovered st faults header m).1.opened header) none))

variable {faults : Faults} {m : NvramManager} {st : Storage} {C : Machine → Prop} {w : Machine}

/-- `Initialize` only reports success for an initialized manager. -/
lemma Recovery.initialized {m' : NvramManager} {st' : Storage}
    (h : Recovery faults m st true m' st') : m'.initialized := by
  cases h with
  | already hinit => exact hinit
  | blank | done | rewritten => rfl

/-- What a crash during `Initialize` can leave. -/
inductive RecoveryTorn (faults : Faults) (m : NvramManager) (st : Storage) : Storage → Prop where
  | same : RecoveryTorn faults m st st
  | cleaned (header : NvramHeader) (st₁ : Storage) : m.initialized = false →
      Recovers st faults header → Cleaned st faults header (recovered st faults header m).2 st₁ →
      RecoveryTorn faults m st st₁

section

variable (hcrash : ∀ w', w'.storage = w.storage → C w') {header : NvramHeader}
  {Q : Bool → Machine → Prop}

include hcrash

/-- `WriteHeader` stores the header or reports a failure. -/
lemma writeHeader_wp {provisional : Option UInt32} {Q : Result → Machine → Prop}
    (hsuccess : ∀ w', w'.mgr = w.mgr → (∀ c, w'.faults c ⊆ w.faults c) →
      w'.faults .deleteSpace = w.faults .deleteSpace →
      w'.storage = w.storage.withHeader (headerOf w.mgr provisional) → Q .success w')
    (hfail : ∀ w', w'.mgr = w.mgr → (∀ c, w'.faults c ⊆ w.faults c) →
      w'.storage = w.storage → Q .internalError w') :
    wp (writeHeader provisional) Q C w := by
  have hsub : ∀ c, ((w.drew .allocate).drew .storeHeader).faults c ⊆ w.faults c := fun c =>
    List.Subset.trans (drew_faults_subset _ _ c) (drew_faults_subset w _ c)
  unfold writeHeader
  simp only [wp_bind, wp_manager]
  refine wp_allocate (hcrash _ rfl) ?_
  intro ok
  cases ok with
  | false => exact hfail _ rfl (drew_faults_subset w _) rfl
  | true =>
    simp only [Bool.not_true, Bool.false_eq_true, if_false, wp_bind]
    refine wp_store (hcrash _ rfl) ?_ ?_ ?_
    · exact hsuccess _ rfl hsub rfl rfl
    · intro _
      exact hfail _ rfl hsub rfl
    · intro _
      exact hfail _ rfl hsub rfl

lemma finishInitialize_wp
    (hkept : ∀ w', w'.mgr = w.mgr.opened header → (∀ c, w'.faults c ⊆ w.faults c) →
      w'.storage = w.storage → Q true w')
    (hwritten : ∀ w', w'.mgr = w.mgr.opened header → (∀ c, w'.faults c ⊆ w.faults c) →
      header.provisionalIndex.isSome →
      w'.storage = w.storage.withHeader (headerOf (w.mgr.opened header) none) → Q true w') :
    wp (finishInitialize header) Q C w := by
  unfold finishInitialize
  simp only [wp_bind, wp_setManager, wp_ite, wp_pure]
  split
  · rename_i hp
    refine writeHeader_wp ?_ ?_ ?_
    · exact hcrash
    · intro w' hm hf _ hs
      exact hwritten w' hm hf hp hs
    · intro w' hm hf hs
      exact hkept w' hm hf hs
  · exact hkept _ rfl (fun c => List.Subset.refl _) rfl

lemma provisionalSpaceInStorage_wp
    (hret : ∀ w', w'.mgr = w.mgr → w'.storage = w.storage → (∀ c, w'.faults c ⊆ w.faults c) →
      w'.faults .deleteSpace = w.faults .deleteSpace →
      Q (provisionalSeen w.storage w.faults header) w') :
    wp (provisionalSpaceInStorage header.provisionalIndex) Q C w := by
  unfold provisionalSeen at hret
  cases hp : header.provisionalIndex with
  | none =>
    rw [hp] at hret
    exact hret w rfl rfl (fun c => List.Subset.refl _) rfl
  | some index =>
    rw [hp] at hret
    have hret' : Q (dataSeen w.storage w.faults index) (w.drew .loadSpace) :=
      hret _ rfl rfl (drew_faults_subset w _) rfl
    unfold dataSeen at hret'
    simp only [provisionalSpaceInStorage, wp_bind]
    refine wp_load (hcrash _ rfl) ?_ ?_ ?_ ?_
    · intro a ho ha
      rw [show (w.faults .loadSpace).headD .served = .served from ho] at hret'
      rw [ha] at hret'
      exact hret'
    · intro ho ha
      rw [show (w.faults .loadSpace).headD .served = .served from ho] at hret'
      rw [ha] at hret'
      exact hret'
    · intro ho
      rwa [show (w.faults .loadSpace).headD .served = .notFound from ho] at hret'
    · intro ho
      rwa [show (w.faults .loadSpace).headD .served = .storageError from ho] at hret'

end

lemma drew_sub (h : ∀ c, w.faults c ⊆ faults c) {c' : Call} :
    ∀ c, (w.drew c').faults c ⊆ faults c :=
  fun c => List.Subset.trans (drew_faults_subset w c' c) (h c)

lemma initLoop_false (p : Option UInt32) (seen : Bool) (l : List UInt32) (m : NvramManager) :
    (initLoop p seen l m false).2 = false := by
  induction l generalizing m with
  | nil => rfl
  | cons i l ih =>
    unfold initLoop
    split
    · split
      · exact ih m
      · exact ih (m.push i)
    · exact ih (m.push i)

/-- Only a provisional space is ever deleted. -/
lemma recovered_keeps
    (h : ∀ index, header.provisionalIndex = some index → (recovered st faults header m).2 = false) :
    (recovered st faults header m).2 = false := by
  cases hp : header.provisionalIndex with
  | some index => exact h index hp
  | none =>
    unfold recovered
    rw [hp]
    exact initLoop_false _ _ _ _

/-- The end of `Initialize`, once the loop and the deletion are over. -/
lemma finish_wp {st₁ : Storage} (hinit : m.initialized = false) (hrec : Recovers st faults header)
    (hclean : Cleaned st faults header (recovered st faults header m).2 st₁)
    (hm : w.mgr = (recovered st faults header m).1) (hs : w.storage = st₁)
    (hsub : ∀ c, w.faults c ⊆ faults c) :
    wp (finishInitialize header)
      (fun ok w' => Recovery faults m st ok w'.mgr w'.storage ∧ ∀ c, w'.faults c ⊆ faults c)
      (fun w' => RecoveryTorn faults m st w'.storage) w := by
  refine finishInitialize_wp ?_ ?_ ?_
  · intro w' hs'
    rw [hs', hs]
    exact .cleaned header st₁ hinit hrec hclean
  · intro w' hm' hf hs'
    refine ⟨?_, fun c => List.Subset.trans (hf c) (hsub c)⟩
    rw [hm', hs', hm, hs]
    exact .done header st₁ hinit hrec hclean
  · intro w' hm' hf hp hs'
    refine ⟨?_, fun c => List.Subset.trans (hf c) (hsub c)⟩
    rw [hm', hs', hm, hs]
    exact .rewritten header st₁ hinit hrec hclean hp

/-- `Initialize` from a loaded header does what `Recovery` lists. -/
lemma initializeFrom_wp (hinit : w.mgr.initialized = false) (hload : w.storage.header = some header)
    (hserved : (faults .loadHeader).headD .served = .served)
    (hspace : w.faults .loadSpace = faults .loadSpace)
    (hdelete : w.faults .deleteSpace = faults .deleteSpace)
    (hsub : ∀ c, w.faults c ⊆ faults c) :
    wp (initializeFrom header) (fun ok w' => Recovery faults w.mgr w.storage ok w'.mgr w'.storage ∧
        ∀ c, w'.faults c ⊆ faults c)
      (fun w' => RecoveryTorn faults w.mgr w.storage w'.storage) w := by
  have hseen : provisionalSeen w.storage w.faults header =
      provisionalSeen w.storage faults header := by
    unfold provisionalSeen dataSeen
    rw [hspace]
  unfold initializeFrom
  simp only [wp_bind, wp_ite, wp_pure]
  split
  · exact ⟨.refused hinit, hsub⟩
  rename_i hversion
  refine provisionalSpaceInStorage_wp ?_ ?_
  · intro w' hs
    rw [hs]
    exact .same
  intro w1 hm1 hs1 hf1 hd1
  have hsub1 : ∀ c, w1.faults c ⊆ faults c := fun c => List.Subset.trans (hf1 c) (hsub c)
  split
  · rw [wp_pure, hm1, hs1]
    exact ⟨.refused hinit, hsub1⟩
  rename_i hbound
  have hrec : Recovers w.storage faults header :=
    ⟨hload, hserved, UInt32.not_lt.mp hversion, Nat.not_lt.mp hbound⟩
  have hmanager : (initLoop header.provisionalIndex (provisionalSeen w.storage faults header)
      header.allocatedIndices w.mgr header.provisionalIndex.isSome).1.noteOverrun =
        (recovered w.storage faults header w.mgr).1 := rfl
  have hdeletes : (initLoop header.provisionalIndex (provisionalSeen w.storage faults header)
      header.allocatedIndices w.mgr header.provisionalIndex.isSome).2 =
        (recovered w.storage faults header w.mgr).2 := rfl
  simp only [wp_bind, wp_manager, wp_setManager, hm1, hseen, hmanager, hdeletes]
  split
  · rename_i index hp hdel
    simp only [wp_bind]
    refine wp_deleteSpaceData ?_ ?_ ?_ ?_
    · rw [hs1]
      exact .same
    · intro status hne
      have hclean : Cleaned w.storage faults header _ _ := .deleted index hdel hp
      cases status with
      | kStorageError => exact absurd rfl hne
      | kNotFound | kSuccess => exact finish_wp hinit hrec hclean rfl (by rw [hs1]) (drew_sub hsub1)
    · intro ho
      have hmem := mem_faults_of_outcome ho (by decide)
      have hclean : Cleaned w.storage faults header _ _ :=
        .missed index hdel hp (hsub1 _ hmem)
      exact finish_wp hinit hrec hclean rfl hs1 (drew_sub hsub1)
    · intro ho
      rw [wp_pure, hs1]
      refine ⟨.aborted header hinit hrec hdel ?_, drew_sub hsub1⟩
      rw [← hdelete, ← hd1]
      exact ho
  · rename_i hnot
    have hdel : (recovered w.storage faults header w.mgr).2 = false :=
      recovered_keeps fun index hp => by
        cases hd : (recovered w.storage faults header w.mgr).2 with
        | false => rfl
        | true => exact absurd hd (hnot index hp)
    exact finish_wp hinit hrec (.kept hdel) rfl hs1 hsub1

/-- **`Initialize` does what `Recovery` lists.** -/
theorem initializeManager_wp (w : Machine) :
    wp initializeManager (fun ok w' => Recovery w.faults w.mgr w.storage ok w'.mgr w'.storage ∧
        ∀ c, w'.faults c ⊆ w.faults c)
      (fun w' => RecoveryTorn w.faults w.mgr w.storage w'.storage) w := by
  unfold initializeManager
  simp only [wp_bind, wp_manager, wp_ite]
  split
  · rename_i hinit
    exact ⟨.already hinit, fun c => List.Subset.refl _⟩
  rename_i hinit
  rw [Bool.not_eq_true] at hinit
  have hsub := drew_faults_subset w .loadHeader
  refine wp_load .same ?_ ?_ ?_ ?_
  · intro header ho hh
    exact initializeFrom_wp hinit hh ho rfl rfl hsub
  · intro _ hh
    exact ⟨.blank hinit (.inl hh), hsub⟩
  · intro ho
    exact ⟨.blank hinit (.inr (mem_faults_of_outcome ho (by decide))), hsub⟩
  · intro _
    exact ⟨.refused hinit, hsub⟩

end Nvram
