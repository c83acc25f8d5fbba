import AlpsSystem.Lib.Runs

/-!
# Event flags

The event flag of `libfmq/EventFlag.cpp`: a word of 32 bits that threads set bits of
(`wake`) and wait for bits of (`wait`), with the futex calls `FUTEX_WAKE_BITSET` and
`FUTEX_WAIT_BITSET` between them.  A step is one access to the word or one action of the
kernel, together with the local code up to the next of them.

* `State.step`, `run` — every interleaving of the steps of any number of threads.
* `no_wake_lost` — a sleeper never misses a bit that is set, and no bit that a wake has
  set is reported twice.
-/

namespace Fmq.EventFlag

/-- The futex word, and the masks on it. -/
abbrev Word := BitVec 32

/-- The errors of a futex call. -/
inductive Errno where
  | again
  | interrupted
  | timedOut
  | other
  deriving DecidableEq, Repr

/-- `status_t`; an error of the kernel is returned negated. -/
inductive Status where
  | noError
  | badValue
  | error (e : Errno)
  deriving DecidableEq, Repr

/-- The variables of a call of `wait`. -/
structure Wait where
  bitmask : Word
  /-- `efState` is not the null pointer. -/
  efState : Bool
  /-- What is left of the timeout; `0` for none. -/
  timeoutNanoSeconds : Int
  retry : Bool
  /-- When the timeout was last decremented. -/
  prevTimeNs : Int
  deriving DecidableEq, Repr

/-- Where a thread is. -/
inductive Pc where
  /-- In no call on this flag. -/
  | idle
  /-- In `wake`, before `FUTEX_WAKE_BITSET`. -/
  | waking (bitmask : Word)
  /-- In `wait`, before `waitHelper`. -/
  | starting (w : Wait)
  /-- In `waitHelper`, before `FUTEX_WAIT_BITSET`. -/
  | expecting (w : Wait) (efWord : Word)
  /-- Asleep in `FUTEX_WAIT_BITSET`. -/
  | asleep (w : Wait)
  /-- In `waitHelper`, after `FUTEX_WAIT_BITSET` has returned `0`. -/
  | woken (w : Wait)
  deriving DecidableEq, Repr

/-- What a call has returned; `efState` is `none` where nothing is stored there. -/
inductive Result where
  | wake (status : Status)
  | wait (status : Status) (efState : Option Word)
  deriving DecidableEq, Repr

/-- The word, the threads and what their calls have returned.  The last three fields
are history: they number the accesses of `wake` to the word, and tell for every bit which
of them it stands for as long as it is set, and to whom it was reported. -/
structure State (T : Type) where
  word : Word
  pc : T → Pc := fun _ => .idle
  results : List (T × Result) := []
  wakes : Nat := 0
  setBy : Nat → List Nat := fun _ => []
  reportedTo : Nat → Nat → List T := fun _ _ => []

section Model

variable {T : Type} [DecidableEq T]

/-- The word gets a new value.  A bit that is not set stands for no wake. -/
def State.store (s : State T) (word : Word) : State T :=
  { s with word := word, setBy := fun i => if word.getLsbD i then s.setBy i else [] }

/-- `atomic_fetch_or(mEfWordPtr, bitmask)` of a wake. -/
def State.fetchOr (s : State T) (bitmask : Word) : State T :=
  { s.store (s.word ||| bitmask) with
    wakes := s.wakes + 1
    setBy := fun i => if bitmask.getLsbD i then s.wakes :: s.setBy i else s.setBy i }

/-- `atomic_fetch_and(mEfWordPtr, ~bitmask)`. -/
def State.fetchAnd (s : State T) (bitmask : Word) : State T := s.store (s.word &&& ~~~bitmask)

def State.goto (s : State T) (t : T) (pc : Pc) : State T :=
  { s with pc := Function.update s.pc t pc }

/-- The bits of `efState` are reported to a caller of `wait`, and with them the wakes that
they stand for. -/
def State.report (s : State T) (t : T) (efState : Word) : State T :=
  { s with reportedTo := fun wake i =>
      if efState.getLsbD i ∧ wake ∈ s.setBy i then t :: s.reportedTo wake i
      else s.reportedTo wake i }

def State.finish (s : State T) (t : T) (result : Result) : State T :=
  { s.goto t .idle with results := s.results ++ [(t, result)] }

/-- `waitHelper` returns to `wait`. -/
def State.waitReturns (s : State T) (t : T) (w : Wait) (status : Status)
    (efState : Option Word) : State T :=
  if w.retry ∧ (status = .error .again ∨ status = .error .interrupted) then s.goto t (.starting w)
  else (s.report t (efState.getD 0)).finish t (.wait status efState)

/-- `wake`, up to the futex call. -/
def State.wake (s : State T) (t : T) (bitmask : Word) : State T :=
  if bitmask = 0 then s.finish t (.wake .noError)
  else if ~~~s.word &&& bitmask ≠ 0 then (s.fetchOr bitmask).goto t (.waking bitmask)
  -- there were deferred wakes for all of the bits
  else (s.fetchOr bitmask).finish t (.wake .noError)

/-- `FUTEX_WAKE_BITSET` on the caller's mask: all sleepers whose masks meet it return.
The limit `INT_MAX` is above the number of threads of a system. -/
def State.futexWake (s : State T) (t : T) (bitmask : Word) : State T :=
  { s with pc := fun u =>
      match s.pc u with
      | .asleep w => if w.bitmask &&& bitmask ≠ 0 then .woken w else .asleep w
      | pc => pc }.finish t (.wake .noError)

/-- `waitHelper`, up to the futex call. -/
def State.waitHelper (s : State T) (t : T) (w : Wait) : State T :=
  if w.bitmask = 0 ∨ w.efState = false then s.waitReturns t w .badValue none
  else
    let setBits := s.word &&& w.bitmask
    if setBits ≠ 0 then (s.waitReturns t w .noError (some setBits)).fetchAnd w.bitmask
    else (s.fetchAnd w.bitmask).goto t (.expecting w (s.word &&& ~~~w.bitmask))

/-- The head of the loop of `wait`, which reads the clock if there is a timeout, and
`waitHelper`. -/
def State.waitLoop (s : State T) (t : T) (w : Wait) (currentTimeNs : Int) : State T :=
  if w.retry ∧ w.timeoutNanoSeconds ≠ 0 then
    let left := w.timeoutNanoSeconds - (currentTimeNs - w.prevTimeNs)
    if left ≤ 0 then s.finish t (.wait (.error .timedOut) (some 0))
    else s.waitHelper t { w with timeoutNanoSeconds := left, prevTimeNs := currentTimeNs }
  else s.waitHelper t w

/-- `FUTEX_WAIT_BITSET`: the thread sleeps if the word has the expected value. -/
def State.futexWait (s : State T) (t : T) (w : Wait) (efWord : Word) : State T :=
  if s.word = efWord then s.goto t (.asleep w)
  else s.waitReturns t w (.error .again) (some 0)

/-- `waitHelper` after a futex call that returned `0`. -/
def State.wakeUp (s : State T) (t : T) (w : Wait) : State T :=
  let efState := s.word &&& w.bitmask
  let status := if efState = 0 then .error .interrupted else .noError
  (s.waitReturns t w status (some efState)).fetchAnd w.bitmask

/-- The steps.  One that its thread is not ready for changes nothing. -/
inductive Event (T : Type) where
  /-- The thread calls `wake`. -/
  | wake (t : T) (bitmask : Word)
  | futexWake (t : T)
  /-- The thread calls `wait`, at the time that `w` holds. -/
  | wait (t : T) (w : Wait)
  | waitLoop (t : T) (currentTimeNs : Int)
  | futexWait (t : T)
  /-- `FUTEX_WAIT_BITSET` fails: the timeout has passed, a signal arrived, or the call
  is refused. -/
  | fail (t : T) (e : Errno)
  /-- A sleeper returns though no wake was for it. -/
  | spurious (t : T)
  | wakeUp (t : T)

def State.step (s : State T) : Event T → State T
  | .wake t bitmask => if s.pc t = .idle then s.wake t bitmask else s
  | .futexWake t =>
    match s.pc t with
    | .waking bitmask => s.futexWake t bitmask
    | _ => s
  | .wait t w => if s.pc t = .idle then s.goto t (.starting w) else s
  | .waitLoop t currentTimeNs =>
    match s.pc t with
    | .starting w => s.waitLoop t w currentTimeNs
    | _ => s
  | .futexWait t =>
    match s.pc t with
    | .expecting w efWord => s.futexWait t w efWord
    | _ => s
  | .fail t e =>
    match s.pc t with
    | .expecting w _ => s.waitReturns t w (.error e) (some 0)
    | .asleep w => s.waitReturns t w (.error e) (some 0)
    | _ => s
  | .spurious t =>
    match s.pc t with
    | .asleep w => s.goto t (.woken w)
    | _ => s
  | .wakeUp t =>
    match s.pc t with
    | .woken w => s.wakeUp t w
    | _ => s

/-- A run from a word of any value, with no thread in a call. -/
def run (word : Word) (events : List (Event T)) : State T :=
  events.foldl State.step { word := word }

end Model

/-! ## What one step does -/

open BitVec Function State

section Effects

variable {T : Type} [DecidableEq T] {s : State T}

/-- The thread is not asleep; if it is about to be, it expects none of its bits to be
set. -/
def Pc.Awake : Pc → Prop
  | .expecting w efWord => efWord &&& w.bitmask = 0
  | .asleep _ => False
  | _ => True

/-- No futex wake is pending in this thread. -/
def Pc.Still : Pc → Prop
  | .waking _ => False
  | _ => True

/-- What a step can do. -/
inductive Effect (s : State T) : State T → Prop
  /-- Nothing. -/
  | none : Effect s s
  /-- The thread goes somewhere, or returns, without the word. -/
  | moved (t : T) (pc : Pc) (results : List (T × Result)) : (s.pc t).Still → pc.Awake →
      Effect s { s.goto t pc with results := results }
  /-- The thread sets bits; for one that was not set, a futex wake is pending then. -/
  | set (t : T) (bitmask : Word) (pc : Pc) (results : List (T × Result)) :
      (s.pc t).Still → pc.Awake →
      (∀ i, bitmask.getLsbD i = true → s.word.getLsbD i = false → pc = .waking bitmask) →
      Effect s { (s.fetchOr bitmask).goto t pc with results := results }
  /-- A futex wake. -/
  | woke (t : T) (bitmask : Word) : s.pc t = .waking bitmask → Effect s (s.futexWake t bitmask)
  /-- The thread clears the bits of its mask, and those that were set are reported to it. -/
  | took (t : T) (bitmask : Word) (pc : Pc) (results : List (T × Result)) :
      (s.pc t).Still → pc.Awake →
      Effect s { ((s.report t (s.word &&& bitmask)).fetchAnd bitmask).goto t pc with
        results := results }
  /-- The thread falls asleep on the word it expects. -/
  | slept (t : T) (w : Wait) : s.pc t = .expecting w s.word → Effect s (s.goto t (.asleep w))

omit [DecidableEq T] in
theorem report_zero (s : State T) (t : T) : s.report t 0 = s := by
  simp [report]

/-- Where `waitHelper` returns with bits, `wait` reports them; where it tries again, there
were none. -/
lemma waitReturns_eq (s : State T) (t : T) (w : Wait) (status : Status) (efState : Option Word)
    (hstatus : efState.getD 0 ≠ 0 → status = .noError) :
    ∃ pc results, pc.Awake ∧ s.waitReturns t w status efState =
      { (s.report t (efState.getD 0)).goto t pc with results } := by
  unfold waitReturns
  split
  case isTrue hretry =>
    have hzero : efState.getD 0 = 0 := by
      by_contra hbits
      rw [hstatus hbits] at hretry
      rcases hretry.2 with h | h <;> cases h
    rw [hzero, report_zero]
    exact ⟨.starting w, s.results, trivial, rfl⟩
  case isFalse => exact ⟨.idle, _, trivial, rfl⟩

/-- `waitHelper` returns without having found a bit. -/
lemma waitReturns_effect (t : T) (w : Wait) (status : Status) {efState : Option Word}
    (hzero : efState.getD 0 = 0) (hstill : (s.pc t).Still) :
    Effect s (s.waitReturns t w status efState) := by
  obtain ⟨pc, results, haway, heq⟩ :=
    waitReturns_eq s t w status efState fun h => absurd hzero h
  rw [heq, hzero, report_zero]
  exact .moved t pc results hstill haway

/-- `waitHelper` returns with the bits it has taken from the word. -/
lemma waitReturns_took (t : T) (w : Wait) {status : Status}
    (hstatus : s.word &&& w.bitmask ≠ 0 → status = .noError) (hstill : (s.pc t).Still) :
    Effect s ((s.waitReturns t w status (some (s.word &&& w.bitmask))).fetchAnd w.bitmask) := by
  obtain ⟨pc, results, haway, heq⟩ :=
    waitReturns_eq s t w status (some (s.word &&& w.bitmask)) hstatus
  rw [heq]
  exact .took t w.bitmask pc results hstill haway

lemma wake_effect {t : T} (hidle : s.pc t = .idle) (bitmask : Word) :
    Effect s (s.wake t bitmask) := by
  have hstill : (s.pc t).Still := hidle ▸ trivial
  unfold wake
  split
  · exact .moved t .idle _ hstill trivial
  · split
    · exact .set t bitmask (.waking bitmask) s.results hstill trivial fun _ _ _ => rfl
    · rename_i hset
      refine .set t bitmask .idle _ hstill trivial fun i hi hclear => absurd hset ?_
      intro hzero
      have hbit : (~~~s.word &&& bitmask).getLsbD i := by
        rw [getLsbD_and, getLsbD_not, hi, hclear, decide_eq_true (lt_of_getLsbD hi)]
        rfl
      rw [not_not.mp hzero] at hbit
      simp at hbit

open Pc

lemma waitHelper_effect {t : T} (hstill : (s.pc t).Still) (w : Wait) :
    Effect s (s.waitHelper t w) := by
  unfold waitHelper
  dsimp only
  split
  · exact waitReturns_effect t w .badValue rfl hstill
  · split
    · exact waitReturns_took t w (fun _ => rfl) hstill
    · rename_i hzero
      have hexpects : (expecting w (s.word &&& ~~~w.bitmask)).Awake := by
        rw [Pc.Awake, BitVec.and_assoc]
        simp
      have hnone := Effect.took t w.bitmask _ s.results hstill hexpects
      rw [not_not.mp hzero, report_zero] at hnone
      exact hnone

lemma step_effect (s : State T) (e : Event T) : Effect s (s.step e) := by
  cases e with
  | wake t bitmask =>
    dsimp only [step]
    split
    case isTrue hidle => exact wake_effect hidle bitmask
    case isFalse => exact .none
  | futexWake t =>
    dsimp only [step]
    split
    case h_1 bitmask hpc => exact .woke t bitmask hpc
    case h_2 => exact .none
  | wait t w =>
    dsimp only [step]
    split
    case isTrue hidle => exact .moved t (.starting w) s.results (hidle ▸ trivial) trivial
    case isFalse => exact .none
  | waitLoop t currentTimeNs =>
    dsimp only [step]
    split
    case h_1 w hpc =>
      have hstill : (s.pc t).Still := hpc ▸ trivial
      unfold waitLoop
      dsimp only
      split
      · split
        · exact .moved t .idle _ hstill trivial
        · exact waitHelper_effect hstill _
      · exact waitHelper_effect hstill w
    case h_2 => exact .none
  | futexWait t =>
    dsimp only [step]
    split
    case h_1 w efWord hpc =>
      unfold futexWait
      split
      case isTrue heq => exact .slept t w (heq ▸ hpc)
      case isFalse => exact waitReturns_effect t w (.error .again) rfl (hpc ▸ trivial)
    case h_2 => exact .none
  | fail t e =>
    dsimp only [step]
    split
    case h_1 w efWord hpc => exact waitReturns_effect t w (.error e) rfl (hpc ▸ trivial)
    case h_2 w hpc => exact waitReturns_effect t w (.error e) rfl (hpc ▸ trivial)
    case h_3 => exact .none
  | spurious t =>
    dsimp only [step]
    split
    case h_1 w hpc => exact .moved t (.woken w) s.results (hpc ▸ trivial) trivial
    case h_2 => exact .none
  | wakeUp t =>
    dsimp only [step]
    split
    case h_1 w hpc => exact waitReturns_took t w (fun hbits => if_neg hbits) (hpc ▸ trivial)
    case h_2 => exact .none

end Effects

/-! ## Sleepers -/

section Sleepers

variable {T : Type} [DecidableEq T] {s : State T} {t u : T} {pc : Pc} {w : Wait}
  {bitmask efWord : Word}

/-- No thread sleeps on a bit that is set, unless a futex wake for this bit is pending. -/
def State.NoLostWake (s : State T) : Prop :=
  ∀ t w i, s.pc t = .asleep w → w.bitmask.getLsbD i = true → s.word.getLsbD i = true →
    ∃ u bitmask, s.pc u = .waking bitmask ∧ bitmask.getLsbD i = true

/-- A thread that is about to sleep expects none of its bits to be set. -/
def State.ExpectsNone (s : State T) : Prop :=
  ∀ t w efWord, s.pc t = .expecting w efWord → efWord &&& w.bitmask = 0

lemma asleep_of_update (hawake : pc.Awake)
    (h : Function.update s.pc t pc u = .asleep w) : s.pc u = .asleep w := by
  by_cases hu : u = t
  · subst hu
    rw [update_self] at h
    rw [h] at hawake
    exact hawake.elim
  · rwa [update_of_ne hu] at h

lemma waking_update (hstill : (s.pc t).Still)
    (h : s.pc u = .waking bitmask) : Function.update s.pc t pc u = .waking bitmask := by
  by_cases hu : u = t
  · subst hu
    rw [h] at hstill
    exact hstill.elim
  · rwa [update_of_ne hu]

lemma State.ExpectsNone.update (h : s.ExpectsNone)
    (hpc : ∀ w efWord, pc = .expecting w efWord → efWord &&& w.bitmask = 0)
    (hu : Function.update s.pc t pc u = .expecting w efWord) :
    efWord &&& w.bitmask = 0 := by
  by_cases hut : u = t
  · subst hut
    rw [update_self] at hu
    exact hpc w efWord hu
  · rw [update_of_ne hut] at hu
    exact h u w efWord hu

lemma Pc.Awake.expects (h : pc.Awake) (w : Wait) (efWord : Word)
    (hpc : pc = .expecting w efWord) : efWord &&& w.bitmask = 0 := by
  subst hpc
  exact h

/-- Masks with a common bit meet. -/
lemma and_ne_zero {a b : Word} {i : Nat} (ha : a.getLsbD i) (hb : b.getLsbD i) : a &&& b ≠ 0 := by
  intro hzero
  have hbit : (a &&& b).getLsbD i := by rw [getLsbD_and, ha, hb]; rfl
  rw [hzero] at hbit
  simp at hbit

/-- Where the threads are after a futex wake: the caller has returned, and who is still
asleep has no bit in common with it. -/
lemma futexWake_asleep (h : (s.futexWake t bitmask).pc u = .asleep w) :
    s.pc u = .asleep w ∧ w.bitmask &&& bitmask = 0 := by
  unfold futexWake finish goto at h
  dsimp only at h
  by_cases hu : u = t
  · subst hu
    rw [update_self] at h
    cases h
  · rw [update_of_ne hu] at h
    split at h
    · rename_i w' hpc
      split at h
      · cases h
      case isFalse hmeet =>
        obtain rfl : w' = w := Pc.asleep.inj h
        exact ⟨hpc, not_not.mp hmeet⟩
    · rename_i hne
      exact absurd h (hne w)

lemma futexWake_other (hut : u ≠ t) (hne : ∀ w, s.pc u ≠ .asleep w) :
    (s.futexWake t bitmask).pc u = s.pc u := by
  unfold futexWake finish goto
  dsimp only
  rw [update_of_ne hut]
  split
  · rename_i w hpc
    exact absurd hpc (hne w)
  · rfl

lemma futexWake_expecting
    (h : (s.futexWake t bitmask).pc u = .expecting w efWord) : s.pc u = .expecting w efWord := by
  unfold futexWake finish goto at h
  dsimp only at h
  by_cases hu : u = t
  · subst hu
    rw [update_self] at h
    cases h
  · rw [update_of_ne hu] at h
    split at h
    · split at h <;> cases h
    · exact h

/-- A step keeps that no wake-up is lost. -/
lemma Effect.sleepers {s' : State T} (h : Effect s s') (hexp : s.ExpectsNone)
    (hlost : s.NoLostWake) : s'.ExpectsNone ∧ s'.NoLostWake := by
  cases h with
  | none => exact ⟨hexp, hlost⟩
  | moved t pc results hstill hawake =>
    refine ⟨fun u w efWord hu => hexp.update hawake.expects hu, ?_⟩
    intro u w i hu hi hset
    obtain ⟨v, bitmask, hv, hbit⟩ := hlost u w i (asleep_of_update hawake hu) hi hset
    exact ⟨v, bitmask, waking_update hstill hv, hbit⟩
  | set t bitmask pc results hstill hawake hpend =>
    refine ⟨fun u w efWord hu => hexp.update hawake.expects hu, ?_⟩
    intro u w i hu hi hset
    have hor : (s.word ||| bitmask).getLsbD i := hset
    cases hold : s.word.getLsbD i with
    | true =>
      obtain ⟨v, mask, hv, hbit⟩ := hlost u w i (asleep_of_update hawake hu) hi hold
      exact ⟨v, mask, waking_update hstill hv, hbit⟩
    | false =>
      -- the bit is new, and the thread that has set it goes on to the futex wake
      have hbit : bitmask.getLsbD i := by
        rwa [getLsbD_or, hold, Bool.false_or] at hor
      refine ⟨t, bitmask, ?_, hbit⟩
      rw [hpend i hbit hold]
      exact update_self t _ s.pc
  | woke t bitmask hwaking =>
    refine ⟨fun u w efWord hu => hexp u w efWord (futexWake_expecting hu), ?_⟩
    intro u w i hu hi hset
    obtain ⟨hasleep, hmeet⟩ := futexWake_asleep hu
    obtain ⟨v, mask, hv, hbit⟩ := hlost u w i hasleep hi hset
    -- the pending wake is not this one, which has woken every thread with its bits
    have hvt : v ≠ t := by
      rintro rfl
      obtain rfl : bitmask = mask := Pc.waking.inj (hwaking.symm.trans hv)
      exact and_ne_zero hi hbit hmeet
    refine ⟨v, mask, ?_, hbit⟩
    rw [futexWake_other hvt (by rw [hv]; exact fun _ => nofun), hv]
  | took t bitmask pc results hstill hawake =>
    refine ⟨fun u w efWord hu => hexp.update hawake.expects hu, ?_⟩
    intro u w i hu hi hset
    have hand : (s.word &&& ~~~bitmask).getLsbD i := hset
    rw [getLsbD_and, Bool.and_eq_true] at hand
    obtain ⟨v, mask, hv, hbit⟩ := hlost u w i (asleep_of_update hawake hu) hi hand.1
    exact ⟨v, mask, waking_update hstill hv, hbit⟩
  | slept t w hexpects =>
    have hstill : (s.pc t).Still := hexpects ▸ trivial
    refine ⟨fun u w' efWord hu => hexp.update (fun _ _ h => Pc.noConfusion h) hu, ?_⟩
    intro u w' i hu hi hset
    by_cases hut : u = t
    · -- none of its bits is set
      subst hut
      obtain rfl : w = w' := Pc.asleep.inj ((update_self u _ s.pc).symm.trans hu)
      exact absurd (hexp u w s.word hexpects) (and_ne_zero hset hi)
    · have hold : s.pc u = .asleep w' := (update_of_ne hut _ s.pc).symm.trans hu
      obtain ⟨v, bitmask, hv, hbit⟩ := hlost u w' i hold hi hset
      exact ⟨v, bitmask, waking_update hstill hv, hbit⟩

end Sleepers

/-! ## Reports -/

section Reports

variable {T : Type} {s : State T}

/-- Of every wake, each bit is reported to at most one caller of `wait`. -/
def State.ReportedOnce (s : State T) : Prop :=
  ∀ wake i, (s.reportedTo wake i).length ≤ 1

/-- A wake that still stands in the word has not been reported, nor has one to come. -/
structure State.Unreported (s : State T) : Prop where
  numbered : ∀ i, ∀ wake ∈ s.setBy i, wake < s.wakes
  standing : ∀ i, ∀ wake ∈ s.setBy i, s.reportedTo wake i = []
  later : ∀ i wake, s.wakes ≤ wake → s.reportedTo wake i = []

lemma unreported_fetchOr (h : s.Unreported) (bitmask : Word) : (s.fetchOr bitmask).Unreported := by
  have hset : ∀ i, ∀ wake ∈ (s.fetchOr bitmask).setBy i, wake = s.wakes ∨ wake ∈ s.setBy i := by
    intro i wake hwake
    dsimp only [fetchOr] at hwake
    split at hwake
    · exact List.mem_cons.mp hwake
    · exact .inr hwake
  refine ⟨fun i wake hwake => ?_, fun i wake hwake => ?_, fun i wake hle => ?_⟩
  · rcases hset i wake hwake with rfl | hold
    · exact Nat.lt_succ_self s.wakes
    · exact Nat.lt_succ_of_lt (h.numbered i wake hold)
  · rcases hset i wake hwake with rfl | hold
    · exact h.later i s.wakes le_rfl
    · exact h.standing i wake hold
  · exact h.later i wake (Nat.le_of_succ_le hle)

lemma reportedTo_report (t : T) (efState : Word) (wake i : Nat) :
    (s.report t efState).reportedTo wake i = s.reportedTo wake i ∨
      efState.getLsbD i ∧ wake ∈ s.setBy i ∧
        (s.report t efState).reportedTo wake i = t :: s.reportedTo wake i := by
  dsimp only [report]
  split
  case isTrue h => exact .inr ⟨h.1, h.2, rfl⟩
  case isFalse => exact .inl rfl

/-- The bits that are reported do not stand in the word any more. -/
lemma unreported_took (h : s.Unreported) (t : T) (bitmask : Word) :
    ((s.report t (s.word &&& bitmask)).fetchAnd bitmask).Unreported := by
  have hset : ∀ i, ∀ wake ∈ ((s.report t (s.word &&& bitmask)).fetchAnd bitmask).setBy i,
      bitmask.getLsbD i = false ∧ wake ∈ s.setBy i := by
    intro i wake hwake
    dsimp only [fetchAnd, store] at hwake
    split at hwake
    case isTrue hbit =>
      simp only [getLsbD_and, getLsbD_not, Bool.and_eq_true, Bool.not_eq_true'] at hbit
      exact ⟨hbit.2.2, hwake⟩
    case isFalse => cases hwake
  refine ⟨fun i wake hwake => h.numbered i wake (hset i wake hwake).2, fun i wake hwake => ?_,
    fun i wake hle => ?_⟩
  · obtain ⟨hclear, hold⟩ := hset i wake hwake
    rcases reportedTo_report t (s.word &&& bitmask) wake i with heq | ⟨hbit, -, -⟩
    · exact heq.trans (h.standing i wake hold)
    · rw [getLsbD_and, hclear, Bool.and_false] at hbit
      cases hbit
  · rcases reportedTo_report t (s.word &&& bitmask) wake i with heq | ⟨-, hmem, -⟩
    · exact heq.trans (h.later i wake hle)
    · exact absurd (h.numbered i wake hmem) (not_lt.mpr hle)

lemma reportedOnce_report (h : s.Unreported) (honce : s.ReportedOnce) (t : T) (efState : Word) :
    (s.report t efState).ReportedOnce := by
  intro wake i
  rcases reportedTo_report t efState wake i with heq | ⟨-, hmem, heq⟩
  · rw [heq]
    exact honce wake i
  · rw [heq, h.standing i wake hmem]
    exact le_refl 1

/-- A step keeps that no bit of a wake is reported twice. -/
lemma Effect.reports [DecidableEq T] {s' : State T} (h : Effect s s') (hun : s.Unreported)
    (honce : s.ReportedOnce) : s'.Unreported ∧ s'.ReportedOnce := by
  cases h with
  | none => exact ⟨hun, honce⟩
  | moved | woke | slept => exact ⟨{ hun with }, honce⟩
  | set t bitmask pc results =>
    have h := unreported_fetchOr hun bitmask
    exact ⟨{ h with }, honce⟩
  | took t bitmask pc results =>
    have h := unreported_took hun t bitmask
    exact ⟨{ h with }, reportedOnce_report hun honce t _⟩

end Reports

/-- **No wake-up is lost.** In every interleaving of calls of `wake` and `wait`, no thread
is asleep on a bit that is set without a pending futex wake for this bit, and every bit that
a wake has set is reported to at most one waiter. -/
theorem no_wake_lost {T : Type} [DecidableEq T] (word : Word) (events : List (Event T)) :
    (run word events).NoLostWake ∧ (run word events).ReportedOnce := by
  have hsteps : ∀ (s : State T) (e : Event T),
      (s.ExpectsNone ∧ s.NoLostWake) ∧ s.Unreported ∧ s.ReportedOnce → True →
      ((s.step e).ExpectsNone ∧ (s.step e).NoLostWake) ∧
        (s.step e).Unreported ∧ (s.step e).ReportedOnce := fun s e ⟨hsleep, hreport⟩ _ =>
    ⟨(step_effect s e).sleepers hsleep.1 hsleep.2, (step_effect s e).reports hreport.1 hreport.2⟩
  have hrun := Runs.foldSteps_inv hsteps events { word := word }
    ⟨⟨fun _ _ _ => nofun, fun _ _ _ => nofun⟩,
      ⟨fun _ _ => nofun, fun _ _ => nofun, fun _ _ _ => rfl⟩, fun _ _ => Nat.zero_le 1⟩
    (Runs.eachStep_of_forall events _ fun _ _ => trivial)
  exact ⟨hrun.1.2, hrun.2.2⟩

end Fmq.EventFlag
