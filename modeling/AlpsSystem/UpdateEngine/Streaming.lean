import AlpsSystem.UpdateEngine.Progress

/-!
# The data of a payload may arrive in any pieces

Once the manifest is accepted, what `Write` makes of the rest does not depend on how it
is cut into calls, for operations that leave nothing behind in the buffer and whose data
ends below `2 ^ 32`.  The buffer of a performer that waits never holds more than what it
waits for, so that a call takes up the work exactly where the call before it stopped.
-/

namespace UpdateEngine

open List

variable {D : Type} {env : Env D} {s s' : Performer D} {op : InstallOperation} {size : Nat}

/-- An operation that uses up its data, all of which lies below `2 ^ 32`. -/
structure Tame (op : InstallOperation) : Prop where
  unused : op.type = .move ∨ op.type = .sourceCopy → op.length = 0
  small : op.offset + op.length < 2 ^ 32

/-! ## Between two operations -/

/-- The performer has accepted a manifest. -/
structure Streaming (s : Performer D) : Prop extends Located s where
  valid : s.manifestValid = true
  tame : ∀ op ∈ s.operations, Tame op

/-- The buffer holds no more than what the performer waits for. -/
def Fits (s : Performer D) : Prop :=
  s.buffer = [] ∨
  (s.nextOperationNum < s.numTotalOperations ∧
    s.nextOperationNum < s.accNumOperations.getD s.currentPartition 0 ∧
    ∀ op, s.operationIn s.currentPartition = some op → s.buffer.length ≤ op.length) ∨
  (s.numTotalOperations ≤ s.nextOperationNum ∧
    ∀ size, s.manifest.signaturesSize = some size → s.buffer.length ≤ size.toNat)

open Option Performer

lemma Streaming.of_plan (h : Streaming s) (hplan : s'.plan = s.plan)
    (hcur : s'.currentPartition = s.currentPartition)
    (hnext : s.nextOperationNum ≤ s'.nextOperationNum) : Streaming s' where
  toLocated := h.toLocated.of_plan hplan hcur hnext
  valid := (congrArg Plan.manifestValid hplan).trans h.valid
  tame := by
    have hps : s'.partitions = s.partitions := congrArg Plan.partitions hplan
    have hops : s'.operations = s.operations := by
      unfold operations
      rw [hps]
    rw [hops]
    exact h.tame

open InstallOperation

/-- An operation leaves nothing in the buffer. -/
lemma OperationEffect.buffer_eq_nil (h : OperationEffect op s s')
    (htame : Tame op) (hle : s.buffer.length ≤ op.length) : s'.buffer = [] := by
  cases h with
  | consumed | signature => rfl
  | device d hcase =>
    have hzero : op.length = 0 := by
      rcases hcase with ⟨-, hnone⟩ | htype
      · simp [InstallOperation.length, hnone]
      · exact htame.unused htype
    exact length_eq_zero_iff.mp (Nat.le_zero.mp (hzero ▸ hle))

/-- Without all its data an operation is not carried out. -/
lemma canPerform_length (htame : Tame op)
    (h : canPerformInstallOperation s op) : op.length ≤ s.buffer.length := by
  unfold canPerformInstallOperation at h
  split at h
  case isTrue hnone => simp [InstallOperation.length, isNone_iff_eq_none.mp hnone.2]
  case isFalse =>
    split at h
    · cases h
    · rw [decide_eq_true_eq, dataEnd_eq htame.small] at h
      omega

/-- The performer has gone on to the partition of the next operation. -/
structure AtOperation (s : Performer D) (op : InstallOperation) : Prop where
  streaming : Streaming s
  left : s.nextOperationNum < s.numTotalOperations
  next : s.nextOperationNum < s.accNumOperations.getD s.currentPartition 0
  current : s.operationIn s.currentPartition = some op
  buffer : s.buffer.length ≤ op.length

section

variable (h : AtOperation s op) {e : ErrorCode}

include h

lemma AtOperation.tame : Tame op := by
  obtain ⟨p, hp, hop⟩ := operationIn_mem h.current
  exact h.streaming.tame op (mem_flatMap.mpr ⟨p, hp, hop⟩)

omit h in
/-- From the head of the loop to its operation. -/
theorem atOperation_of_advance (h : Streaming s) (hfits : Fits s)
    (hlt : s.nextOperationNum < s.numTotalOperations)
    (hadv : advancePartition env s.partitions.length s = (true, s'))
    (hop : s'.operationIn s'.currentPartition = some op) :
    AtOperation s' op ∧ s'.nextOperationNum = s.nextOperationNum ∧
      s'.numTotalOperations = s.numTotalOperations := by
  rcases hfits with hnil | ⟨-, hnext, hbuf⟩ | ⟨hge, -⟩
  · obtain ⟨hloc, hnext, d, p, rfl⟩ := h.toLocated.advance hlt hadv
    exact ⟨⟨⟨hloc, h.valid, h.tame⟩, hlt, hnext, hop, by simp [hnil]⟩, rfl, rfl⟩
  · rw [advancePartition_of_lt hnext] at hadv
    obtain ⟨-, rfl⟩ := Prod.mk.inj hadv
    exact ⟨⟨h, hlt, hnext, hop, hbuf op hop⟩, rfl, rfl⟩
  · omega

lemma AtOperation.copy (bytes : Bytes) : AtOperation (s.copyDataToBuffer bytes op.length).1 op :=
  ⟨h.streaming.of_plan rfl rfl le_rfl, h.left, h.next, h.current,
    copyDataToBuffer_length_le h.buffer bytes⟩

lemma AtOperation.fits : Fits s :=
  .inr (.inl ⟨h.left, h.next, fun op' hop' => by
    rw [h.current] at hop'
    exact Option.some.inj hop' ▸ h.buffer⟩)

/-- After an operation the performer is ready for the next. -/
lemma AtOperation.done (hperf : performOperation env s op = (true, e, s')) :
    Streaming (operationDone s s' op) ∧ (operationDone s s' op).buffer = [] ∧
      (operationDone s s' op).nextOperationNum = s.nextOperationNum + 1 ∧
      (operationDone s s' op).numTotalOperations = s.numTotalOperations := by
  have heffect := performOperation_effect hperf
  obtain ⟨hplan, hcur, hnext⟩ := heffect.plan_eq
  obtain ⟨prefs, last, history, heq⟩ := operationDone_frame s s' op
  rw [heq]
  refine ⟨h.streaming.of_plan hplan hcur ?_, heffect.buffer_eq_nil h.tame h.buffer,
    congrArg (· + 1) hnext, congrArg Plan.numTotalOperations hplan⟩
  exact Nat.le_succ_of_le (le_of_eq hnext.symm)

/-! ## The loop over the operations -/

/-- A loop that stopped goes on with more bytes. -/
def Flow.resume (env : Env D) (more : Bytes) : Flow D → Flow D
  | .stop false e s => .stop false e s
  | .stop true _ s => operationsLoop env (s.numTotalOperations - s.nextOperationNum) s more
  | .go s rest => .go s (rest ++ more)

/-- An operation whose data is cut stops, and takes it up again. -/
lemma operationStep_append {left : Nat}
    (hleft : left + 1 = s.numTotalOperations - s.nextOperationNum) (a b : Bytes)
    (hrest : ∀ s', Streaming s' → s'.buffer = [] →
      left = s'.numTotalOperations - s'.nextOperationNum → ∀ rest,
      operationsLoop env left s' (rest ++ b) = (operationsLoop env left s' rest).resume env b) :
    operationStep env left s op (a ++ b) = (operationStep env left s op a).resume env b := by
  have hloop : ∀ s' bytes, AtOperation s' op → s'.numTotalOperations = s.numTotalOperations →
      s'.nextOperationNum = s.nextOperationNum →
      operationsLoop env (s'.numTotalOperations - s'.nextOperationNum) s' bytes =
        operationStep env left s' op bytes := by
    intro s' bytes hs' htotal hnext
    rw [htotal, hnext, ← hleft, operationsLoop_succ, advancePartition_of_lt hs'.next]
    dsimp only
    rw [hs'.current]
  have hcopied := h.copy a
  by_cases hcan : canPerformInstallOperation (s.copyDataToBuffer a op.length).1 op
  · -- the data is complete: what comes after it waits its turn
    have hlen := canPerform_length h.tame hcan
    have hroom : s.room op.length ≤ a.length := by
      rw [room_of_le h.buffer]
      simp only [copyDataToBuffer, length_append, length_take] at hlen
      omega
    unfold operationStep
    rw [copyDataToBuffer_of_ge hroom b]
    dsimp only
    rw [hcan, Bool.not_true]
    cases operationHashError env (s.copyDataToBuffer a op.length).1 op with
    | some e => rfl
    | none =>
      rcases hperf : performOperation env (s.copyDataToBuffer a op.length).1 op with ⟨ok, e, s'⟩
      cases ok with
      | false => rfl
      | true =>
        obtain ⟨hstream, hnil, hnext, htotal⟩ := hcopied.done hperf
        refine hrest _ hstream hnil ?_ _
        rw [htotal, hnext]
        change left = s.numTotalOperations - (s.nextOperationNum + 1)
        omega
  · have hstop : operationStep env left s op a =
        .stop true .success (s.copyDataToBuffer a op.length).1 := by
      unfold operationStep
      dsimp only
      rw [Bool.eq_false_of_not_eq_true hcan]
      rfl
    rw [hstop]
    change _ = operationsLoop env _ _ b
    rw [hloop _ b hcopied rfl rfl]
    rcases Nat.le_total a.length (s.room op.length) with hle | hge
    · -- the next piece goes behind the first
      unfold operationStep
      rw [copyDataToBuffer_append h.buffer hle]
    · -- the buffer is full, and still the operation cannot be carried out
      have hfull : (s.copyDataToBuffer a op.length).1.buffer.length = op.length := by
        simp only [copyDataToBuffer, length_append, length_take, room_of_le h.buffer] at hge ⊢
        have := h.buffer
        omega
      unfold operationStep
      rw [copyDataToBuffer_of_ge hge, copyDataToBuffer_full hfull]
      dsimp only
      rw [Bool.eq_false_of_not_eq_true hcan]
      rfl

end

/-- The loop over the operations, cut at any byte. -/
lemma operationsLoop_append (left : Nat) (b : Bytes) :
    ∀ s : Performer D, Streaming s → Fits s →
      left = s.numTotalOperations - s.nextOperationNum → ∀ a,
      operationsLoop env left s (a ++ b) = (operationsLoop env left s a).resume env b := by
  induction left with
  | zero => exact fun s _ _ _ a => rfl
  | succ left ih =>
    intro s h hfits hleft a
    rw [operationsLoop_succ, operationsLoop_succ]
    rcases hadv : advancePartition env s.partitions.length s with ⟨ok, s1⟩
    cases ok with
    | false => rfl
    | true =>
      dsimp only
      cases hop : s1.operationIn s1.currentPartition with
      | none => rfl
      | some op =>
        obtain ⟨hat, hnext, htotal⟩ := atOperation_of_advance h hfits (by omega) hadv hop
        exact operationStep_append hat (by rw [htotal, hnext]; exact hleft) a b
          fun s' hs' hnil hleft' => ih s' hs' (.inl hnil) hleft'

/-- Where the loop can stop. -/
inductive LoopEnds : Flow D → Prop
  | failed (e : ErrorCode) (s : Performer D) : LoopEnds (.stop false e s)
  | waiting (s : Performer D) : Streaming s → Fits s → LoopEnds (.stop true .success s)
  | done (s : Performer D) (rest : Bytes) : Streaming s → Fits s →
      s.numTotalOperations ≤ s.nextOperationNum → LoopEnds (.go s rest)

lemma operationsLoop_ends (env : Env D) (left : Nat) :
    ∀ (s : Performer D) (bytes : Bytes), Streaming s → Fits s →
      left = s.numTotalOperations - s.nextOperationNum →
      LoopEnds (operationsLoop env left s bytes) := by
  induction left with
  | zero => exact fun s bytes h hfits hleft => .done s bytes h hfits (by omega)
  | succ left ih =>
    intro s bytes h hfits hleft
    rw [operationsLoop_succ]
    rcases hadv : advancePartition env s.partitions.length s with ⟨ok, s1⟩
    cases ok with
    | false => exact .failed _ _
    | true =>
      dsimp only
      cases hop : s1.operationIn s1.currentPartition with
      | none => exact .failed _ _
      | some op =>
        obtain ⟨hat, hnext, htotal⟩ := atOperation_of_advance h hfits (by omega) hadv hop
        have hcopied := hat.copy bytes
        unfold operationStep
        dsimp only
        split
        · exact .waiting _ hcopied.streaming hcopied.fits
        · split
          · exact .failed _ _
          · split
            · exact .failed _ _
            case h_2 s2 hperf =>
              obtain ⟨hstream, hnil, hnext', htotal'⟩ := hcopied.done hperf
              refine ih _ _ hstream (.inl hnil) ?_
              rw [hnext', htotal']
              change left = s1.numTotalOperations - (s1.nextOperationNum + 1)
              omega

/-! ## The signature at the end -/

/-- The state without the record of what was done to the preferences. -/
def Performer.forget (s : Performer D) : Performer D := { s with history := [] }

/-- Events that write to the preferences what is there already. -/
def Prefs.Rewrites (prefs : Prefs) (events : List Event) : Prop :=
  ∀ w, Event.pref w ∈ events → prefs.set w = prefs

/-- A call, and several that come to the same result and the same state.  An empty
signature is noted with every call. -/
structure SameResult (r r' : Bool × ErrorCode × Performer D) : Prop where
  ok : r.1 = r'.1
  code : r.2.1 = r'.2.1
  state : r.2.2.forget = r'.2.2.forget
  history : ∃ extra, r'.2.2.history = r.2.2.history ++ extra ∧ r.2.2.prefs.Rewrites extra

lemma Prefs.rewrites_nil (prefs : Prefs) : prefs.Rewrites [] :=
  fun _ hw => absurd hw List.not_mem_nil

open Prefs

lemma SameResult.rfl {r : Bool × ErrorCode × Performer D} : SameResult r r :=
  ⟨.refl _, .refl _, .refl _, [], (List.append_nil _).symm, rewrites_nil _⟩

/-- A call that did not fail is followed by one with more bytes. -/
def resumeWrite (env : Env D) (more : Bytes) :
    Bool × ErrorCode × Performer D → Bool × ErrorCode × Performer D
  | (true, _, s) => write env s more
  | (false, e, s) => (false, e, s)

lemma Streaming.write_eq (h : Streaming s) (bytes : Bytes) :
    write env s bytes = writeData env s bytes := by
  unfold write
  rw [metadataLoop, if_pos h.valid]

/-- With all operations done, only the signature is left. -/
lemma Streaming.write_eq_readSignature (h : Streaming s)
    (hdone : s.numTotalOperations ≤ s.nextOperationNum) (bytes : Bytes) :
    write env s bytes = readSignature s bytes := by
  rw [h.write_eq]
  unfold writeData
  rw [Nat.sub_eq_zero_of_le hdone]
  rfl

lemma checkpoint_prefs (s : Performer D) :
    (checkpointUpdateProgress s).lastUpdatedBufferOffset = some s.bufferOffset ∧
      (checkpointUpdateProgress s).prefs.nextOperation = some (s.nextOperationNum : Int) ∧
      (checkpointUpdateProgress s).prefs.signatureBlob = s.prefs.signatureBlob := by
  unfold checkpointUpdateProgress checkpointData
  dsimp only
  split
  · split <;> exact ⟨rfl, rfl, rfl⟩
  case isFalse h => exact ⟨not_not.mp h, rfl, rfl⟩

/-- The performer waits for the signature behind the data. -/
structure Awaits (s : Performer D) (size : Nat) : Prop where
  offset : s.manifest.signaturesOffset.map UInt64.toNat = some s.bufferOffset
  size : s.manifest.signaturesSize.map UInt64.toNat = some size
  version : s.majorPayloadVersion = kBrilloMajorPayloadVersion
  empty : s.signaturesMessageData = []

/-- Take the signature out of the buffer. -/
def takeSignature (s : Performer D) (size : Nat) : Performer D :=
  checkpointUpdateProgress
    (({ s with signaturesMessageData := s.buffer.take size }.setPref
      (.signatureBlob (s.buffer.take size))).discardBuffer true 0)

lemma Awaits.copy (h : Awaits s size) (bytes : Bytes) (max : Nat) :
    Awaits (s.copyDataToBuffer bytes max).1 size := { h with }

lemma Awaits.readSignature_eq (h : Awaits s size) (bytes : Bytes) :
    readSignature s bytes = (true, .success,
      if (s.copyDataToBuffer bytes size).1.buffer.length < size then
        (s.copyDataToBuffer bytes size).1
      else takeSignature (s.copyDataToBuffer bytes size).1 size) := by
  obtain ⟨offset, hoffset, hoff⟩ := Option.map_eq_some_iff.mp h.offset
  obtain ⟨size', hsize, rfl⟩ := Option.map_eq_some_iff.mp h.size
  unfold readSignature
  rw [hoffset, hsize]
  dsimp only
  rw [if_pos ⟨h.version, h.empty⟩, if_neg (not_not.mpr hoff)]
  by_cases hlt : (s.copyDataToBuffer bytes size'.toNat).1.buffer.length < size'.toNat
  · rw [if_pos hlt, if_pos hlt]
  · rw [if_neg hlt, if_neg hlt]
    have hextract : extractSignatureMessage (s.copyDataToBuffer bytes size'.toNat).1 =
        (true, ({ (s.copyDataToBuffer bytes size'.toNat).1 with
          signaturesMessageData :=
            (s.copyDataToBuffer bytes size'.toNat).1.buffer.take size'.toNat }.setPref
          (.signatureBlob
            ((s.copyDataToBuffer bytes size'.toNat).1.buffer.take size'.toNat)))) := by
      unfold extractSignatureMessage
      have hempty : (s.copyDataToBuffer bytes size'.toNat).1.signaturesMessageData = [] := h.empty
      have hso : (s.copyDataToBuffer bytes size'.toNat).1.manifest.signaturesOffset = some offset :=
        hoffset
      have hss : (s.copyDataToBuffer bytes size'.toNat).1.manifest.signaturesSize = some size' :=
        hsize
      have hbo : (s.copyDataToBuffer bytes size'.toNat).1.bufferOffset = offset.toNat := hoff.symm
      rw [hss, hso]
      dsimp only [getD_some]
      rw [if_neg (not_not.mpr hempty), if_neg (not_not.mpr hbo), if_neg hlt]
    rw [hextract]
    rfl

/-- Otherwise the end of `Write` either fails or does nothing. -/
lemma readSignature_of_not_awaits (h : ¬ ∃ size, Awaits s size) :
    (∀ bytes, readSignature s bytes = (false, .downloadPayloadVerificationError, s)) ∨
      ∀ bytes, readSignature s bytes = (true, .success, s) := by
  unfold readSignature
  cases hoffset : s.manifest.signaturesOffset with
  | none => exact .inr fun _ => rfl
  | some offset =>
    cases hsize : s.manifest.signaturesSize with
    | none => exact .inr fun _ => rfl
    | some size =>
      dsimp only
      by_cases hcond : s.majorPayloadVersion = kBrilloMajorPayloadVersion ∧
          s.signaturesMessageData = []
      · by_cases hoff : offset.toNat = s.bufferOffset
        · exact absurd ⟨size.toNat, by simp [hoffset, hoff], by simp [hsize], hcond.1, hcond.2⟩ h
        · exact .inl fun _ => by rw [if_pos hcond, if_pos hoff]
      · exact .inr fun _ => by rw [if_neg hcond]

lemma takeSignature_frame (s : Performer D) (size : Nat) : ∃ prefs last history,
    takeSignature s size = { s with
      signaturesMessageData := s.buffer.take size
      bufferOffset := s.bufferOffset + s.buffer.length
      payloadHash := s.payloadHash ++ s.buffer
      signedHash := s.signedHash
      buffer := []
      prefs := prefs, lastUpdatedBufferOffset := last, history } := by
  unfold takeSignature
  obtain ⟨prefs, last, history, heq⟩ := checkpoint_frame
    (({ s with signaturesMessageData := s.buffer.take size }.setPref
      (.signatureBlob (s.buffer.take size))).discardBuffer true 0)
  refine ⟨prefs, last, history, ?_⟩
  rw [heq]
  simp [discardBuffer, setPref]

/-- An empty signature is taken again by the next call, which changes nothing. -/
lemma takeSignature_again (hsize : size = 0) (hbuf : s.buffer = []) (bytes : Bytes) :
    ∃ extra, takeSignature ((takeSignature s size).copyDataToBuffer bytes size).1 size =
      { takeSignature s size with history := (takeSignature s size).history ++ extra } ∧
      (takeSignature s size).prefs.Rewrites extra := by
  subst hsize
  obtain ⟨prefs, last, history, heq⟩ := takeSignature_frame s 0
  have hprefs : prefs.nextOperation = some (s.nextOperationNum : Int) ∧
      prefs.signatureBlob = some [] ∧ last = some s.bufferOffset := by
    have hp := checkpoint_prefs
      (({ s with signaturesMessageData := s.buffer.take 0 }.setPref
        (.signatureBlob (s.buffer.take 0))).discardBuffer true 0)
    have hdef : takeSignature s 0 = checkpointUpdateProgress
      (({ s with signaturesMessageData := s.buffer.take 0 }.setPref
        (.signatureBlob (s.buffer.take 0))).discardBuffer true 0) := rfl
    rw [← hdef, heq] at hp
    obtain ⟨hlast, hnext, hblob⟩ := hp
    refine ⟨hnext, hblob, hlast.trans ?_⟩
    simp [discardBuffer, setPref, hbuf]
  obtain ⟨hnext, hblob, rfl⟩ := hprefs
  refine ⟨[.pref (.signatureBlob []), .pref (.nextOperation s.nextOperationNum)], ?_, ?_⟩
  · rw [heq]
    simp [takeSignature, checkpointUpdateProgress, copyDataToBuffer, room, hbuf,
      setPref, discardBuffer, Prefs.set, ← hnext, ← hblob]
  · intro w hw
    rw [heq]
    simp only [mem_cons, not_mem_nil, or_false, Event.pref.injEq] at hw
    rcases hw with rfl | rfl
    · simp [Prefs.set, ← hblob]
    · simp [Prefs.set, ← hnext]

/-- Once the signature is taken, the end of `Write` changes nothing more. -/
lemma readSignature_taken (h : Awaits s size) (hlen : s.buffer.length = size) (bytes : Bytes) :
    ∃ extra, readSignature (takeSignature s size) bytes = (true, .success,
      { takeSignature s size with history := (takeSignature s size).history ++ extra }) ∧
      (takeSignature s size).prefs.Rewrites extra := by
  obtain ⟨prefs, last, history, heq⟩ := takeSignature_frame s size
  by_cases hnil : s.buffer = []
  · -- an empty signature is taken again
    have hzero : size = 0 := by rw [← hlen, hnil]; rfl
    have hagain : Awaits (takeSignature s size) size := by
      rw [heq, hnil]
      exact ⟨h.offset, h.size, h.version, take_nil⟩
    obtain ⟨extra, hextra, hrewrites⟩ := takeSignature_again hzero hnil bytes
    refine ⟨extra, ?_, hrewrites⟩
    rw [hagain.readSignature_eq, if_neg (by omega), hextra]
  · refine ⟨[], ?_, rewrites_nil _⟩
    have hfull : (takeSignature s size).signaturesMessageData ≠ [] := by
      rw [heq]
      rw [take_of_length_le hlen.le]
      exact hnil
    rw [append_nil]
    unfold readSignature
    split
    · rw [if_neg fun hcond => hfull hcond.2]
    · rfl

section

variable (hdone : s.numTotalOperations ≤ s.nextOperationNum)

include hdone

/-- The buffer holds at most the signature that is waited for. -/
lemma Fits.length_le (h : Fits s) (hawaits : Awaits s size) : s.buffer.length ≤ size := by
  rcases h with hnil | ⟨hlt, -⟩ | ⟨-, hsize⟩
  · simp [hnil]
  · omega
  · obtain ⟨size', hss, rfl⟩ := Option.map_eq_some_iff.mp hawaits.size
    exact hsize size' hss

/-- The end of `Write`, cut at any byte. -/
lemma readSignature_append (h : Streaming s) (hfits : Fits s) (a b : Bytes) :
    SameResult (readSignature s (a ++ b)) (resumeWrite env b (readSignature s a)) := by
  by_cases hawaits : ∃ size, Awaits s size
  · obtain ⟨size, hawaits⟩ := hawaits
    have hle := hfits.length_le hdone hawaits
    have hcopied : Streaming (s.copyDataToBuffer a size).1 :=
      h.of_plan rfl rfl le_rfl
    rw [hawaits.readSignature_eq, hawaits.readSignature_eq]
    by_cases hshort : (s.copyDataToBuffer a size).1.buffer.length < size
    · -- the signature goes on in the next piece
      have hroom : a.length ≤ s.room size := by
        simp only [copyDataToBuffer, length_append, length_take, room_of_le hle] at hshort ⊢
        omega
      rw [if_pos hshort]
      change SameResult _ (write env _ b)
      rw [hcopied.write_eq_readSignature hdone, (hawaits.copy a size).readSignature_eq,
        copyDataToBuffer_append hle hroom]
      exact .rfl
    · have hroom : s.room size ≤ a.length := by
        simp only [copyDataToBuffer, length_append, length_take, room_of_le hle] at hshort ⊢
        omega
      rw [copyDataToBuffer_of_ge hroom, if_neg hshort]
      change SameResult _ (write env _ b)
      obtain ⟨prefs, last, history, heq⟩ := takeSignature_frame (s.copyDataToBuffer a size).1 size
      have htaken : Streaming (takeSignature (s.copyDataToBuffer a size).1 size) := by
        rw [heq]
        exact h.of_plan rfl rfl le_rfl
      rw [htaken.write_eq_readSignature (by rw [heq]; exact hdone)]
      have hfull : (s.copyDataToBuffer a size).1.buffer.length = size :=
        le_antisymm (copyDataToBuffer_length_le hle a) (not_lt.mp hshort)
      obtain ⟨extra, hread, hrewrites⟩ := readSignature_taken (hawaits.copy a size) hfull b
      rw [hread]
      exact ⟨.refl _, .refl _, .refl _, extra, .refl _, hrewrites⟩
  · rcases readSignature_of_not_awaits hawaits with hfail | hskip
    · rw [hfail, hfail]
      exact .rfl
    · rw [hskip, hskip]
      change SameResult _ (write env s b)
      rw [h.write_eq_readSignature hdone, hskip]
      exact .rfl

omit hdone in
/-- What `Write` does after the metadata, cut at any byte. -/
theorem writeData_append (h : Streaming s) (hfits : Fits s) (a b : Bytes) :
    SameResult (writeData env s (a ++ b)) (resumeWrite env b (writeData env s a)) := by
  have hends := operationsLoop_ends env _ s a h hfits rfl
  unfold writeData
  rw [operationsLoop_append _ b s h hfits rfl a]
  cases hloop : operationsLoop env (s.numTotalOperations - s.nextOperationNum) s a with
  | stop ok e s1 =>
    rw [hloop] at hends
    cases hends with
    | failed => exact .rfl
    | waiting _ hstream =>
      change SameResult (writeData env s1 b) (write env s1 b)
      rw [hstream.write_eq]
      exact .rfl
  | go s1 rest =>
    rw [hloop] at hends
    cases hends with
    | done _ _ hstream hfits1 hdone => exact readSignature_append hdone hstream hfits1 rest b

lemma readSignature_waits (h : Streaming s) (hfits : Fits s) {a : Bytes}
    (hread : readSignature s a = (true, e, s')) : e = .success ∧ Streaming s' ∧ Fits s' := by
  by_cases hawaits : ∃ size, Awaits s size
  · obtain ⟨size, hawaits⟩ := hawaits
    have hle := copyDataToBuffer_length_le (hfits.length_le hdone hawaits) a
    rw [hawaits.readSignature_eq] at hread
    obtain ⟨-, rfl, rfl⟩ : true ∧ ErrorCode.success = e ∧ _ = s' := by
      simpa only [Prod.mk.injEq] using hread
    refine ⟨rfl, ?_⟩
    split
    · refine ⟨h.of_plan rfl rfl le_rfl, .inr (.inr ⟨hdone, ?_⟩)⟩
      intro size' hsize'
      obtain ⟨size'', hss, rfl⟩ := Option.map_eq_some_iff.mp hawaits.size
      obtain rfl : size'' = size' := Option.some.inj (hss.symm.trans hsize')
      exact hle
    · obtain ⟨prefs, last, history, heq⟩ := takeSignature_frame (s.copyDataToBuffer a size).1 size
      rw [heq]
      exact ⟨h.of_plan rfl rfl le_rfl, .inl rfl⟩
  · rcases readSignature_of_not_awaits hawaits with hfail | hskip
    · rw [hfail] at hread
      cases hread
    · rw [hskip] at hread
      cases hread
      exact ⟨rfl, h, hfits⟩

end

/-- A call that succeeds leaves a performer that waits for more. -/
lemma writeData_waits (h : Streaming s) (hfits : Fits s) {a : Bytes}
    (hwrite : writeData env s a = (true, e, s')) : e = .success ∧ Streaming s' ∧ Fits s' := by
  have hends := operationsLoop_ends env _ s a h hfits rfl
  unfold writeData at hwrite
  cases hloop : operationsLoop env (s.numTotalOperations - s.nextOperationNum) s a with
  | stop ok e s1 =>
    rw [hloop] at hends hwrite
    cases hends with
    | failed => cases hwrite
    | waiting _ hstream hfits1 =>
      cases hwrite
      exact ⟨rfl, hstream, hfits1⟩
  | go s1 rest =>
    rw [hloop] at hends hwrite
    cases hends with
    | done _ _ hstream hfits1 hdone => exact readSignature_waits hdone hstream hfits1 hwrite

end UpdateEngine
