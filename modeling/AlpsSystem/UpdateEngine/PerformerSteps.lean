import AlpsSystem.UpdateEngine.DeltaPerformer

/-!
# The steps of the performer

What each part of `Write` can do to the state, said once.
-/

namespace UpdateEngine

open List

variable {D : Type} {env : Env D} {s s' : Performer D} {max fuel : Nat} {op : InstallOperation}
  {a : Bytes} {e : ErrorCode}

/-! ## Reading -/

lemma room_of_le (h : s.buffer.length ≤ max) : s.room max = max - s.buffer.length :=
  if_pos h

open Option Performer

/-- Reading fills the buffer up to the limit. -/
lemma copyDataToBuffer_eq (h : s.buffer.length ≤ max) (a : Bytes) :
    s.copyDataToBuffer a max =
      ({ s with buffer := (s.buffer ++ a).take max }, (s.buffer ++ a).drop max) := by
  unfold copyDataToBuffer
  rw [room_of_le h, take_append, take_of_length_le h, drop_append, drop_of_length_le h, nil_append]

lemma copyDataToBuffer_length_le (h : s.buffer.length ≤ max) (bytes : Bytes) :
    (s.copyDataToBuffer bytes max).1.buffer.length ≤ max := by
  rw [copyDataToBuffer_eq h]
  exact length_take_le _ _

/-- What comes after enough bytes is left alone. -/
lemma copyDataToBuffer_of_ge (h : s.room max ≤ a.length) (b : Bytes) :
    s.copyDataToBuffer (a ++ b) max =
      ((s.copyDataToBuffer a max).1, (s.copyDataToBuffer a max).2 ++ b) := by
  simp [copyDataToBuffer, take_append_of_le_length h, drop_append_of_le_length h]

/-- A piece that does not reach the limit, and then another. -/
lemma copyDataToBuffer_append (hle : s.buffer.length ≤ max)
    (h : a.length ≤ s.room max) (b : Bytes) :
    (s.copyDataToBuffer a max).1.copyDataToBuffer b max = s.copyDataToBuffer (a ++ b) max := by
  have hle' : (s.buffer ++ a).length ≤ max := by
    rw [room_of_le hle] at h
    rw [length_append]
    omega
  rw [copyDataToBuffer_eq hle a, copyDataToBuffer_eq hle (a ++ b), take_of_length_le hle',
    copyDataToBuffer_eq hle', append_assoc]

/-- A full buffer takes nothing more. -/
lemma copyDataToBuffer_full (h : s.buffer.length = max) (b : Bytes) :
    s.copyDataToBuffer b max = (s, b) := by
  simp [copyDataToBuffer, room_of_le h.le, h]

/-! ## Partitions -/

lemma length_accumulate (start : Nat) (ps : List PartitionUpdate) :
    (accumulate start ps).length = ps.length := by
  induction ps generalizing start with
  | nil => rfl
  | cons p ps ih => simp [accumulate, ih]

lemma openCurrentPartition_frame (h : openCurrentPartition env s = some s') :
    s.currentPartition < s.partitions.length ∧ ∃ d, s' = { s with device := d } := by
  unfold openCurrentPartition at h
  split at h
  · cases h
  · obtain ⟨d, -, rfl⟩ := Option.map_eq_some_iff.mp h
    exact ⟨by omega, d, rfl⟩

/-- Going on to the partition of the next operation, if there is one. -/
lemma advancePartition_spec (h : advancePartition env fuel s = (true, s'))
    (hcur : s.currentPartition < s.partitions.length)
    (hbefore : s.operationsBefore s.currentPartition ≤ s.nextOperationNum)
    (hnext : ∃ p, s.currentPartition ≤ p ∧ p < s.currentPartition + fuel ∧
      s.nextOperationNum < s.accNumOperations.getD p 0) :
    s'.nextOperationNum < s'.accNumOperations.getD s'.currentPartition 0 ∧
      s'.currentPartition < s'.partitions.length ∧
      s'.operationsBefore s'.currentPartition ≤ s'.nextOperationNum ∧
      ∃ d p, s' = { s with device := d, currentPartition := p } := by
  induction fuel generalizing s with
  | zero =>
    omega
  | succ fuel ih =>
    unfold advancePartition at h
    split at h
    case isTrue hle =>
      dsimp only at h
      split at h
      · cases h
      case h_2 s1 hopen =>
        obtain ⟨hcur1, d, rfl⟩ := openCurrentPartition_frame hopen
        obtain ⟨p, hge, hlt, hp⟩ := hnext
        have hne : p ≠ s.currentPartition := by
          rintro rfl
          omega
        obtain ⟨hdone, hlt', hbefore', d', p', rfl⟩ := ih h hcur1 hle ⟨p, by dsimp only; omega,
          by dsimp only; omega, hp⟩
        exact ⟨hdone, hlt', hbefore', d', p', rfl⟩
    case isFalse hle =>
      obtain ⟨-, rfl⟩ := Prod.mk.inj h
      exact ⟨by omega, hcur, hbefore, s.device, s.currentPartition, rfl⟩

/-- A performer that is at the partition of the next operation stays there. -/
lemma advancePartition_of_lt
    (h : s.nextOperationNum < s.accNumOperations.getD s.currentPartition 0) :
    advancePartition env fuel s = (true, s) := by
  cases fuel with
  | zero => rfl
  | succ fuel =>
    unfold advancePartition
    rw [if_neg (by omega)]

lemma operationIn_mem {partition : Nat}
    (h : s.operationIn partition = some op) : ∃ p ∈ s.partitions, op ∈ p.operations := by
  obtain ⟨p, hp, hop⟩ := bind_eq_some_iff.mp h
  exact ⟨p, mem_of_getElem? hp, mem_of_getElem? hop⟩

/-! ## Operations -/

/-- How an operation that was carried out leaves the buffer. -/
inductive OperationEffect (op : InstallOperation) (s : Performer D) : Performer D → Prop
  /-- Its data is used up. -/
  | consumed (d : D) : s.bufferOffset = op.offset → op.length ≤ s.buffer.length →
      OperationEffect op s ({ s with device := d }.discardBuffer true s.buffer.length)
  /-- Its data was the signature, which is not signed itself. -/
  | signature (offset size : UInt64) : op.type = .replace → s.bufferOffset = op.offset →
      s.manifest.signaturesOffset = some offset → s.manifest.signaturesSize = some size →
      offset.toNat = op.offset → size.toNat = op.length → op.length ≤ s.buffer.length →
      s.signaturesMessageData = [] →
      OperationEffect op s
        (({ s with signaturesMessageData := s.buffer.take op.length }.setPref
          (.signatureBlob (s.buffer.take op.length))).discardBuffer true 0)
  /-- It has no data to use, or does not use it. -/
  | device (d : D) : (op.dataOffset = none ∧ op.dataLength = none) ∨ op.type = .move ∨
      op.type = .sourceCopy → OperationEffect op s { s with device := d }

lemma dataInPlace_iff :
    dataInPlace s op ↔ s.bufferOffset = op.offset ∧ op.length ≤ s.buffer.length := by
  simp [dataInPlace]

/-- The operation is the signature's, and the signature is in the buffer. -/
structure Extracts (s : Performer D) (op : InstallOperation) : Prop where
  type : op.type = .replace
  offset : s.manifest.signaturesOffset.map UInt64.toNat = some op.offset
  size : s.manifest.signaturesSize.map UInt64.toNat = some op.length
  empty : s.signaturesMessageData = []
  bufferOffset : s.bufferOffset = op.offset
  length : op.length ≤ s.buffer.length

/-- Keep the first bytes of the buffer as the signature. -/
def Performer.keepSignature (s : Performer D) (size : Nat) : Performer D :=
  { s with signaturesMessageData := s.buffer.take size }.setPref
    (.signatureBlob (s.buffer.take size))

/-- `ExtractSignatureMessageFromOperation` in one condition. -/
lemma extractFromOperation_eq (s : Performer D) (op : InstallOperation) :
    (Extracts s op ∧
        extractSignatureMessageFromOperation s op = (true, s.keepSignature op.length)) ∨
      (¬ Extracts s op ∧ extractSignatureMessageFromOperation s op = (false, s)) := by
  unfold extractSignatureMessageFromOperation
  by_cases htype : op.type = .replace
  swap
  · exact .inr ⟨fun h => htype h.type, if_pos htype⟩
  rw [if_neg (not_not.mpr htype)]
  cases hso : s.manifest.signaturesOffset with
  | none => exact .inr ⟨fun h => by simpa [hso] using h.offset, rfl⟩
  | some offset =>
    dsimp only
    by_cases hoffset : offset.toNat = op.offset
    swap
    · exact .inr ⟨fun h => hoffset (by simpa [hso] using h.offset), if_pos hoffset⟩
    rw [if_neg (not_not.mpr hoffset)]
    cases hss : s.manifest.signaturesSize with
    | none => exact .inr ⟨fun h => by simpa [hss] using h.size, rfl⟩
    | some size =>
      dsimp only
      by_cases hsize : size.toNat = op.length
      swap
      · exact .inr ⟨fun h => hsize (by simpa [hss] using h.size), if_pos hsize⟩
      rw [if_neg (not_not.mpr hsize)]
      unfold extractSignatureMessage
      rw [hso, hss]
      dsimp only [getD_some]
      by_cases hempty : s.signaturesMessageData = []
      swap
      · exact .inr ⟨fun h => hempty h.empty, if_pos hempty⟩
      rw [if_neg (not_not.mpr hempty)]
      by_cases hbo : s.bufferOffset = offset.toNat
      swap
      · exact .inr ⟨fun h => hbo (h.bufferOffset.trans hoffset.symm), if_pos hbo⟩
      rw [if_neg (not_not.mpr hbo)]
      by_cases hlen : s.buffer.length < size.toNat
      · exact .inr ⟨fun h => not_lt.mpr h.length (hsize ▸ hlen), if_pos hlen⟩
      · rw [if_neg hlen, hsize]
        exact .inl ⟨⟨htype, by rw [hso, Option.map_some, hoffset],
          by rw [hss, Option.map_some, hsize], hempty, hbo.trans hoffset,
          not_lt.mp (hsize ▸ hlen)⟩, rfl⟩

/-- Extracting the signature from an operation, when it succeeds. -/
lemma Extracts.effect (h : Extracts s op) :
    OperationEffect op s ((s.keepSignature op.length).discardBuffer true 0) := by
  obtain ⟨offset, hso, hoffset⟩ := Option.map_eq_some_iff.mp h.offset
  obtain ⟨size, hss, hsize⟩ := Option.map_eq_some_iff.mp h.size
  exact .signature offset size h.type h.bufferOffset hso hss hoffset hsize h.length h.empty

lemma performReplace_effect
    (h : performReplaceOperation env s op = (true, s')) : OperationEffect op s s' := by
  unfold performReplaceOperation at h
  split at h
  · cases h
  case isFalse hdata =>
    have hdata : dataInPlace s op = true := by simpa using hdata
    rcases extractFromOperation_eq s op with ⟨hx, hextract⟩ | ⟨-, hextract⟩
    · rw [hextract] at h
      obtain ⟨-, rfl⟩ := Prod.mk.inj h
      exact hx.effect
    · rw [hextract] at h
      dsimp only at h
      split at h
      · cases h
      case h_2 d _ =>
        obtain ⟨-, rfl⟩ := Prod.mk.inj h
        obtain ⟨hoffset, hlen⟩ := dataInPlace_iff.mp hdata
        exact .consumed d hoffset hlen

lemma performBsdiff_effect
    (h : performBsdiffOperation env s op = (true, s')) : OperationEffect op s s' := by
  unfold performBsdiffOperation at h
  split at h
  · cases h
  case isFalse hdata =>
    obtain ⟨hoffset, hlen⟩ := dataInPlace_iff.mp (by simpa using hdata)
    split at h
    · cases h
    case h_2 d _ =>
      dsimp only at h
      split at h
      · obtain ⟨-, rfl⟩ := Prod.mk.inj h
        exact .consumed _ hoffset hlen
      · obtain ⟨-, rfl⟩ := Prod.mk.inj h
        exact .consumed d hoffset hlen

lemma performSourceBsdiff_effect
    (h : performSourceBsdiffOperation env s op = (true, e, s')) : OperationEffect op s s' := by
  unfold performSourceBsdiffOperation at h
  split at h
  · cases h
  case isFalse hdata =>
    obtain ⟨hoffset, hlen⟩ := dataInPlace_iff.mp (by simpa using hdata)
    split at h
    · cases h
    · dsimp only at h
      generalize (if op.srcSha256Hash ≠ [] then env.device.checkSource op s.blockSize s.device
        else (.ok, s.device)) = checked at h
      split at h
      · cases h
      · split at h
        · cases h
        case h_2 d _ =>
          obtain ⟨-, -, rfl⟩ := h
          exact .consumed d hoffset hlen

/-- What an operation does to the state when it is carried out. -/
lemma performOperation_effect
    (h : performOperation env s op = (true, e, s')) : OperationEffect op s s' := by
  unfold performOperation at h
  cases htype : op.type <;> simp only [htype, Prod.mk.injEq] at h
  case replace => exact performReplace_effect (Prod.ext h.1 h.2.2)
  case replaceBz => exact performReplace_effect (Prod.ext h.1 h.2.2)
  case replaceXz => exact performReplace_effect (Prod.ext h.1 h.2.2)
  case bsdiff => exact performBsdiff_effect (Prod.ext h.1 h.2.2)
  case sourceBsdiff => exact performSourceBsdiff_effect h
  case move =>
    obtain ⟨-, -, rfl⟩ := h
    exact .device _ (.inr (.inl htype))
  case sourceCopy =>
    unfold performSourceCopyOperation at h
    split at h
    · cases h
    · simp only [Prod.mk.injEq] at h
      obtain ⟨-, -, rfl⟩ := h
      exact .device _ (.inr (.inr htype))
  case imgdiff => cases h.1
  case zero | discard =>
    unfold performZeroOrDiscardOperation at h
    split at h
    · cases h.1
    case isFalse hnone =>
      obtain ⟨-, -, rfl⟩ := h
      simp only [not_or, Bool.not_eq_true, isSome_eq_false_iff, isNone_iff_eq_none]
        at hnone
      exact .device _ (.inl hnone)

/-! ## Checkpoints -/

/-- A checkpoint touches the preferences and the note of the last offset, nothing else. -/
lemma checkpoint_frame (s : Performer D) : ∃ prefs last history,
    checkpointUpdateProgress s = { s with prefs, lastUpdatedBufferOffset := last, history } := by
  unfold checkpointUpdateProgress checkpointData
  dsimp only
  split
  · split <;> exact ⟨_, _, _, rfl⟩
  · exact ⟨_, _, _, rfl⟩

/-! ## Accepting a manifest -/

/-- All operations of a manifest. -/
def Manifest.operations (m : Manifest) : List InstallOperation :=
  m.partitions.flatMap (·.operations) ++ m.installOperations ++ m.kernelInstallOperations

lemma validateManifest_frame (env : Env D) (s : Performer D) :
    ∃ t, (validateManifest env s).2 = { s with payloadType := t } := by
  unfold validateManifest
  dsimp only
  split
  · exact ⟨s.payloadType, rfl⟩
  · refine ⟨s.manifest.payloadType, ?_⟩
    split
    · rfl
    · split
      · rfl
      · split
        · rfl
        · split <;> rfl

/-- The partitions come from the manifest. -/
lemma takePartitions_frame (s : Performer D) :
    ∃ ps m, s.takePartitions = { s with partitions := ps, manifest := m } ∧
      (s.partitions = [] → ∀ p ∈ ps, ∀ op ∈ p.operations, op ∈ s.manifest.operations) := by
  unfold takePartitions
  split
  · refine ⟨s.manifest.partitions, _, rfl, fun _ p hp op hop => ?_⟩
    simp only [Manifest.operations, mem_append, mem_flatMap]
    exact .inl (.inl ⟨p, hp, hop⟩)
  · split
    · refine ⟨s.partitions ++ legacyPartitions s.manifest, _, rfl, fun hnil p hp op hop => ?_⟩
      rw [hnil, nil_append] at hp
      simp only [legacyPartitions, mem_cons, not_mem_nil, or_false] at hp
      simp only [Manifest.operations, mem_append]
      rcases hp with rfl | rfl
      · exact .inl (.inr hop)
      · exact .inr hop
    · refine ⟨s.partitions, s.manifest, rfl, fun hnil => ?_⟩
      rw [hnil]
      exact fun p hp => absurd hp not_mem_nil

lemma parseManifestPartitions_frame (env : Env D) (s : Performer D) :
    ∃ plan, (parseManifestPartitions env s).2 =
      { s.takePartitions with installPartitions := plan } := by
  refine ⟨(fillInstallPlan s.takePartitions.partitions s.takePartitions.installPartitions).2, ?_⟩
  unfold parseManifestPartitions
  dsimp only
  split
  · rfl
  · split <;> rfl

/-- The state before the operations are counted, when the manifest is accepted. -/
lemma prepareUpdate_success (h : prepareUpdate env s = (.success, s')) :
    ∃ type plan, s' = { (({ s with payloadType := type, manifestValid := true } :
      Performer D).discardBuffer false s.metadataSize).takePartitions with
        installPartitions := plan } := by
  obtain ⟨type, htype⟩ := validateManifest_frame env s
  unfold prepareUpdate at h
  rcases hv : validateManifest env s with ⟨e, s1⟩
  rw [hv] at h htype
  obtain rfl : s1 = { s with payloadType := type } := htype
  cases e
  case success =>
    dsimp only at h
    obtain ⟨plan, hplan⟩ := parseManifestPartitions_frame env
      (({ s with payloadType := type, manifestValid := true } : Performer D).discardBuffer false
        s.metadataSize)
    rw [h] at hplan
    exact ⟨type, plan, hplan⟩
  all_goals cases h

/-- Priming takes the progress from the preferences and leaves the plan of operations. -/
lemma primeUpdateState_frame (s : Performer D) :
    ∃ t, primeUpdateState s = t ∧ t.2.buffer = s.buffer ∧ t.2.manifestValid = s.manifestValid ∧
      t.2.partitions = s.partitions ∧ t.2.accNumOperations = s.accNumOperations ∧
      t.2.numTotalOperations = s.numTotalOperations ∧
      t.2.currentPartition = s.currentPartition := by
  refine ⟨_, rfl, ?_⟩
  unfold primeUpdateState resumeUpdateState
  dsimp only
  repeat' split
  all_goals exact ⟨rfl, rfl, rfl, rfl, rfl, rfl⟩

end UpdateEngine
