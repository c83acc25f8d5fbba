import AlpsSystem.UpdateEngine.PerformerSteps

/-!
# The operations of a payload, one after another

The partitions of a manifest give one list of operations.  The loop of `Write` goes
through it by number and moves on from partition to partition as it needs.

* `Performer.plan` — what does not change once the manifest is accepted.
-/

namespace UpdateEngine

open List

variable {D : Type} {env : Env D} {s s' : Performer D} {p : Nat} {op : InstallOperation}
  {bytes rest : Bytes} {e : ErrorCode}

/-! ## Operations by number -/

/-- The operations of all partitions. -/
def Performer.operations (s : Performer D) : List InstallOperation :=
  s.partitions.flatMap (·.operations)

lemma accumulate_getD {ps : List PartitionUpdate} (start : Nat) (hp : p < ps.length) :
    (accumulate start ps).getD p 0 = start + ((ps.take (p + 1)).flatMap (·.operations)).length := by
  induction ps generalizing start p with
  | nil => cases hp
  | cons q ps ih =>
    cases p with
    | zero => simp [accumulate]
    | succ p =>
      rw [accumulate, getD_cons_succ, ih _ (by simpa using hp), take_succ_cons,
        flatMap_cons, length_append]
      omega

lemma accumulate_getLastD (ps : List PartitionUpdate) :
    (accumulate 0 ps).getLastD 0 = (ps.flatMap (·.operations)).length := by
  cases ps with
  | nil => rfl
  | cons q ps =>
    have hlt : (q :: ps).length - 1 < (q :: ps).length := by simp
    rw [getLastD_eq_getLast?, List.getLast?_eq_getElem?, length_accumulate,
      ← getD_eq_getElem?_getD, accumulate_getD 0 hlt, zero_add, length_cons,
        List.take_of_length_le (by simp)]

/-- The performer knows where in the partitions its next operation is. -/
structure Located (s : Performer D) : Prop where
  acc : s.accNumOperations = accumulate 0 s.partitions
  total : s.numTotalOperations = (accumulate 0 s.partitions).getLastD 0
  partition : s.currentPartition < s.partitions.length
  before : s.operationsBefore s.currentPartition ≤ s.nextOperationNum

lemma Located.total_eq (h : Located s) : s.numTotalOperations = s.operations.length :=
  h.total.trans (accumulate_getLastD s.partitions)

/-- There is a partition for the next operation. -/
lemma Located.exists_partition (h : Located s) (hlt : s.nextOperationNum < s.numTotalOperations) :
    ∃ p, s.currentPartition ≤ p ∧ p < s.currentPartition + s.partitions.length ∧
      s.nextOperationNum < s.accNumOperations.getD p 0 := by
  have hcur := h.partition
  refine ⟨s.partitions.length - 1, by omega, by omega, ?_⟩
  rw [h.acc, accumulate_getD 0 (by omega), zero_add, take_of_length_le (by omega)]
  exact h.total_eq ▸ hlt

open Performer

/-- The operations before a partition. -/
lemma Located.operationsBefore_eq (h : Located s) (hp : p < s.partitions.length) :
    s.operationsBefore p = ((s.partitions.take p).flatMap (·.operations)).length := by
  unfold operationsBefore
  cases p with
  | zero => rfl
  | succ p =>
    rw [if_neg (Nat.succ_ne_zero p), Nat.add_sub_cancel, h.acc, accumulate_getD 0 (by omega),
      zero_add]

/-- The next operation, by its number. -/
lemma Located.operationIn_eq (h : Located s)
    (hnext : s.nextOperationNum < s.accNumOperations.getD s.currentPartition 0) :
    s.operationIn s.currentPartition = s.operations[s.nextOperationNum]? := by
  have hcur := h.partition
  have hbefore := h.before
  rw [h.operationsBefore_eq hcur] at hbefore
  rw [h.acc, accumulate_getD 0 hcur, take_add_one,
    List.getElem?_eq_getElem hcur, flatMap_append, length_append] at hnext
  have hsplit : s.operations = (s.partitions.take s.currentPartition).flatMap (·.operations) ++
      (s.partitions[s.currentPartition].operations ++
        (s.partitions.drop (s.currentPartition + 1)).flatMap (·.operations)) := by
    unfold operations
    conv_lhs => rw [← take_append_drop s.currentPartition s.partitions]
    rw [flatMap_append, drop_eq_getElem_cons hcur, flatMap_cons]
  unfold operationIn
  rw [List.getElem?_eq_getElem hcur, Option.bind_some, h.operationsBefore_eq hcur, hsplit,
    List.getElem?_append_right hbefore, List.getElem?_append_left]
  simp only [Option.toList_some, flatMap_cons, flatMap_nil, append_nil] at hnext
  omega

/-! ## What stays -/

/-- What does not change once the manifest is accepted. -/
structure Plan where
  metadataSize : Nat
  manifestSize : Nat
  metadataSignatureSize : Nat
  majorPayloadVersion : Nat
  manifest : Manifest
  manifestParsed : Bool
  manifestValid : Bool
  payloadType : InstallPayloadType
  partitions : List PartitionUpdate
  installPartitions : List InstallPartition
  accNumOperations : List Nat
  numTotalOperations : Nat
  blockSize : Nat

def Performer.plan (s : Performer D) : Plan :=
  ⟨s.metadataSize, s.manifestSize, s.metadataSignatureSize, s.majorPayloadVersion, s.manifest,
    s.manifestParsed, s.manifestValid, s.payloadType, s.partitions, s.installPartitions,
    s.accNumOperations, s.numTotalOperations, s.blockSize⟩

lemma operations_of_plan (h : s'.plan = s.plan) : s'.operations = s.operations := by
  unfold operations
  rw [show s'.partitions = s.partitions from congrArg Plan.partitions h]

lemma Located.of_plan (h : Located s) (hplan : s'.plan = s.plan)
    (hcur : s'.currentPartition = s.currentPartition)
    (hnext : s.nextOperationNum ≤ s'.nextOperationNum) : Located s' := by
  have hps : s'.partitions = s.partitions := congrArg Plan.partitions hplan
  have hacc : s'.accNumOperations = s.accNumOperations := congrArg Plan.accNumOperations hplan
  have htotal : s'.numTotalOperations = s.numTotalOperations :=
    congrArg Plan.numTotalOperations hplan
  have hbefore : s'.operationsBefore s.currentPartition =
      s.operationsBefore s.currentPartition := by
    unfold operationsBefore
    rw [hacc]
  refine ⟨?_, ?_, ?_, ?_⟩
  · rw [hacc, hps, h.acc]
  · rw [htotal, hps, h.total]
  · rw [hcur, hps]
    exact h.partition
  · rw [hcur, hbefore]
    exact h.before.trans hnext

lemma OperationEffect.plan_eq (h : OperationEffect op s s') :
    s'.plan = s.plan ∧ s'.currentPartition = s.currentPartition ∧
      s'.nextOperationNum = s.nextOperationNum := by
  cases h <;> exact ⟨rfl, rfl, rfl⟩

/-- After an operation only the count, the records and the preferences change. -/
lemma operationDone_frame (before after : Performer D) (op : InstallOperation) :
    ∃ prefs last history, operationDone before after op = { after with
      nextOperationNum := after.nextOperationNum + 1
      performed := after.performed ++ [⟨before.nextOperationNum, op, before.buffer.take op.length⟩]
      prefs := prefs, lastUpdatedBufferOffset := last, history } := by
  obtain ⟨prefs, last, history, heq⟩ := checkpoint_frame { after with
    nextOperationNum := after.nextOperationNum + 1
    performed := after.performed ++ [⟨before.nextOperationNum, op, before.buffer.take op.length⟩]
    history := after.history ++ [.operation before.nextOperationNum] }
  exact ⟨prefs, last, history, heq⟩

/-- Going on to the partition of the next operation. -/
lemma Located.advance (h : Located s) (hlt : s.nextOperationNum < s.numTotalOperations)
    (hadv : advancePartition env s.partitions.length s = (true, s')) :
    Located s' ∧ s'.nextOperationNum < s'.accNumOperations.getD s'.currentPartition 0 ∧
      ∃ d p, s' = { s with device := d, currentPartition := p } := by
  obtain ⟨hnext, hcur, hbefore, d, p, rfl⟩ :=
    advancePartition_spec hadv h.partition h.before (h.exists_partition hlt)
  exact ⟨⟨h.acc, h.total, hcur, hbefore⟩, hnext, d, p, rfl⟩

/-! ## Rounds of the loop -/

/-- The body of the loop, at an operation. -/
def operationStep (env : Env D) (left : Nat) (s : Performer D) (op : InstallOperation)
    (bytes : Bytes) : Flow D :=
  let copied := s.copyDataToBuffer bytes op.length
  if !canPerformInstallOperation copied.1 op then .stop true .success copied.1
  else
    match operationHashError env copied.1 op with
    | some e => .stop false e copied.1
    | none =>
      match performOperation env copied.1 op with
      | (false, e, s) =>
        .stop false (if e = .success then .downloadOperationExecutionError else e) s
      | (true, _, s) => operationsLoop env left (operationDone copied.1 s op) copied.2

lemma operationsLoop_succ (left : Nat) (bytes : Bytes) :
    operationsLoop env (left + 1) s bytes =
      match advancePartition env s.partitions.length s with
      | (false, s) => .stop false .installDeviceOpenError s
      | (true, s) =>
        match s.operationIn s.currentPartition with
        | none => .stop false .error s
        | some op => operationStep env left s op bytes := rfl

/-- A part of `Write` that is followed by another. -/
def Flow.bind (x : Flow D) (f : Performer D → Bytes → Flow D) : Flow D :=
  match x with
  | .stop ok e s => .stop ok e s
  | .go s rest => f s rest

lemma operationStep_eq_bind (left : Nat) (op : InstallOperation) (bytes : Bytes) :
    operationStep env left s op bytes =
      (operationStep env 0 s op bytes).bind (operationsLoop env left) := by
  unfold operationStep
  dsimp only
  split
  · rfl
  · split
    · rfl
    · split <;> rfl

lemma operationsLoop_succ_eq_bind (left : Nat) (bytes : Bytes) :
    operationsLoop env (left + 1) s bytes =
      (operationsLoop env 1 s bytes).bind (operationsLoop env left) := by
  rw [operationsLoop_succ, operationsLoop_succ 0]
  rcases advancePartition env s.partitions.length s with ⟨ok, s1⟩
  cases ok with
  | false => rfl
  | true =>
    dsimp only
    cases s1.operationIn s1.currentPartition with
    | none => rfl
    | some op => exact operationStep_eq_bind left op bytes

/-- The first rounds, and then the others. -/
lemma operationsLoop_add (m n : Nat) (s : Performer D) (bytes : Bytes) :
    operationsLoop env (m + n) s bytes =
      (operationsLoop env m s bytes).bind (operationsLoop env n) := by
  induction m generalizing s bytes with
  | zero => rw [zero_add]; rfl
  | succ m ih =>
    rw [add_right_comm, operationsLoop_succ_eq_bind, operationsLoop_succ_eq_bind m]
    cases operationsLoop env 1 s bytes with
    | stop ok e t => rfl
    | go t rest => exact ih t rest

/-- A round that stops without an error has only filled the buffer, one that goes on has carried
out an operation. -/
lemma operationsLoop_one (s : Performer D) :
    (∃ e t, operationsLoop env 1 s bytes = .stop false e t) ∨
    ∃ s1 op, advancePartition env s.partitions.length s = (true, s1) ∧
      s1.operationIn s1.currentPartition = some op ∧
      let copied := s1.copyDataToBuffer bytes op.length
      operationsLoop env 1 s bytes = .stop true .success copied.1 ∨
        ∃ e t, canPerformInstallOperation copied.1 op ∧
          performOperation env copied.1 op = (true, e, t) ∧
          operationsLoop env 1 s bytes = .go (operationDone copied.1 t op) copied.2 := by
  rw [operationsLoop_succ]
  rcases advancePartition env s.partitions.length s with ⟨ok, s1⟩
  cases ok with
  | false => exact .inl ⟨_, _, rfl⟩
  | true =>
    cases hop : s1.operationIn s1.currentPartition with
    | none => exact .inl ⟨.error, s1, by simp only [hop]⟩
    | some op =>
      simp only [hop, operationStep]
      split
      · exact .inr ⟨s1, op, rfl, hop, .inl rfl⟩
      next hcan =>
      split
      · exact .inl ⟨_, _, rfl⟩
      split
      · exact .inl ⟨_, _, rfl⟩
      next e t hperf => exact .inr ⟨s1, op, rfl, hop, .inr ⟨e, t, by simpa using hcan, hperf, rfl⟩⟩

/-- A round of the loop that carries out an operation. -/
structure Round (env : Env D) (s : Performer D) (bytes : Bytes) (op : InstallOperation)
    (s' : Performer D) (rest : Bytes) : Prop where
  operation : s.operations[s.nextOperationNum]? = some op
  done : ∃ d p e t,
    let copied := { s with device := d, currentPartition := p }.copyDataToBuffer bytes op.length
    Located copied.1 ∧ canPerformInstallOperation copied.1 op = true ∧
      performOperation env copied.1 op = (true, e, t) ∧
      s' = operationDone copied.1 t op ∧ rest = copied.2

lemma Located.round (h : Located s) (hlt : s.nextOperationNum < s.numTotalOperations)
    (hloop : operationsLoop env 1 s bytes = .go s' rest) :
    ∃ op, Round env s bytes op s' rest := by
  rcases operationsLoop_one s with ⟨_, _, hbad⟩ |
    ⟨s1, op, hadv, hop, hbad | ⟨e, t, hcan, hperf, hgo⟩⟩
  · cases hloop.symm.trans hbad
  · cases hloop.symm.trans hbad
  cases hloop.symm.trans hgo
  obtain ⟨hs1, hnext, d, p, rfl⟩ := h.advance hlt hadv
  have hin := hs1.operationIn_eq hnext
  exact ⟨op, hin.symm.trans hop, d, p, e, t, hs1.of_plan rfl rfl le_rfl, hcan, hperf, rfl, rfl⟩

/-- After a round the performer is located at the next operation. -/
lemma Round.frame (h : Round env s bytes op s' rest) :
    Located s' ∧ s'.plan = s.plan ∧ s'.nextOperationNum = s.nextOperationNum + 1 ∧
      s'.numTotalOperations = s.numTotalOperations := by
  obtain ⟨-, d, p, e, t, hloc, -, hperf, rfl, -⟩ := h
  obtain ⟨hplan, hcur, hnext⟩ := (performOperation_effect hperf).plan_eq
  obtain ⟨prefs, last, history, heq⟩ := operationDone_frame
    ({ s with device := d, currentPartition := p }.copyDataToBuffer bytes op.length).1 t op
  rw [heq]
  refine ⟨hloc.of_plan hplan hcur ?_, hplan, congrArg (· + 1) hnext,
    congrArg Plan.numTotalOperations hplan⟩
  exact Nat.le_succ_of_le hnext.symm.le

/-- What every round keeps, the loop keeps. -/
lemma operationsLoop_go (env : Env D) {P : Performer D → Bytes → Prop}
    (hround : ∀ s bytes op s' rest, Located s → P s bytes → Round env s bytes op s' rest →
      P s' rest) (left : Nat) : ∀ s bytes s' rest, Located s →
      s.nextOperationNum + left ≤ s.numTotalOperations → P s bytes →
      operationsLoop env left s bytes = .go s' rest →
      P s' rest ∧ Located s' ∧ s'.plan = s.plan ∧
        s'.nextOperationNum = s.nextOperationNum + left := by
  induction left with
  | zero =>
    intro s bytes s' rest hloc _ hP hloop
    cases hloop
    exact ⟨hP, hloc, rfl, rfl⟩
  | succ left ih =>
    intro s bytes s' rest hloc hle hP hloop
    rw [operationsLoop_succ_eq_bind] at hloop
    cases hone : operationsLoop env 1 s bytes with
    | stop ok e t =>
      rw [hone] at hloop
      cases hloop
    | go t r =>
      rw [hone] at hloop
      obtain ⟨op, hr⟩ := hloc.round (by omega) hone
      obtain ⟨ht, hplan, hnext, htotal⟩ := hr.frame
      obtain ⟨hP', hs', hplan', hnext'⟩ := ih t r s' rest ht (by omega)
        (hround s bytes op t r hloc hP hr) hloop
      exact ⟨hP', hs', hplan'.trans hplan, by omega⟩

/-- A loop that stops without an error has operations left. -/
lemma operationsLoop_stop (left : Nat) : ∀ (s : Performer D) (bytes : Bytes),
    Located s → s.nextOperationNum + left ≤ s.numTotalOperations →
      operationsLoop env left s bytes = .stop true e s' →
      s'.nextOperationNum < s'.numTotalOperations := by
  induction left with
  | zero => exact fun s bytes _ _ hloop => by cases hloop
  | succ left ih =>
    intro s bytes hloc hle hloop
    rw [operationsLoop_succ_eq_bind] at hloop
    cases hone : operationsLoop env 1 s bytes with
    | go t r =>
      rw [hone] at hloop
      obtain ⟨op, hr⟩ := hloc.round (by omega) hone
      obtain ⟨ht, hplan, hnext, htotal⟩ := hr.frame
      exact ih t r ht (by omega) hloop
    | stop ok code t =>
      rw [hone] at hloop
      cases hloop
      rcases operationsLoop_one s with ⟨_, _, hbad⟩ | ⟨s1, op, hadv, -, hstop | ⟨_, _, -, -, hbad⟩⟩
      · cases hone.symm.trans hbad
      · cases hone.symm.trans hstop
        obtain ⟨-, -, d, p, rfl⟩ := hloc.advance (by omega) hadv
        exact (by omega : s.nextOperationNum < s.numTotalOperations)
      · cases hone.symm.trans hbad

/-- A call after which no operation is left has carried them all out. -/
lemma writeData_go (hloc : Located s) (hle : s.nextOperationNum ≤ s.numTotalOperations)
    (hwrite : writeData env s bytes = (true, e, s'))
    (hall : s'.numTotalOperations ≤ s'.nextOperationNum) :
    ∃ t rest, operationsLoop env (s.numTotalOperations - s.nextOperationNum) s bytes = .go t rest ∧
      readSignature t rest = (true, e, s') := by
  unfold writeData at hwrite
  cases hloop : operationsLoop env (s.numTotalOperations - s.nextOperationNum) s bytes with
  | go t rest =>
    rw [hloop] at hwrite
    exact ⟨t, rest, rfl, hwrite⟩
  | stop ok code t =>
    rw [hloop] at hwrite
    cases hwrite
    have := operationsLoop_stop _ s bytes hloc (by omega) hloop
    omega

end UpdateEngine
