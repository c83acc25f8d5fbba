import AlpsSystem.UpdateEngine.Acceptance

/-!
# What a performer reads of a payload

A payload is its metadata, the data blobs and the signature at the end.  The performer
goes through the blobs and the signature in order: what it has discarded is a prefix of
them, and all of it is hashed.  The signature is left out of the signed hash.
-/

namespace UpdateEngine

open List

variable {D : Type} {env : Env D} {s s' : Performer D} {y mt blobs sig rest bytes pre : Bytes}
  {op : InstallOperation}

/-- The performer has read the blobs and the signature, and has hashed them. -/
structure Complete (y mt blobs sig : Bytes) (s : Performer D) : Prop where
  bufferOffset : s.bufferOffset = (blobs ++ sig).length
  payloadHash : s.payloadHash = y ++ (blobs ++ sig)
  signedHash : s.signedHash = mt ++ blobs
  signature : s.signaturesMessageData = sig

/-- How far the performer is in `blobs ++ sig`, with `rest` still to come: it has
discarded a prefix and not met the signature, or it has read everything. -/
inductive Reading (y mt blobs sig : Bytes) (s : Performer D) (rest : Bytes) : Prop
  | part (pre : Bytes) : pre ++ (s.buffer ++ rest) = blobs ++ sig → s.bufferOffset = pre.length →
      s.payloadHash = y ++ pre → s.signedHash = mt ++ pre → s.signaturesMessageData = [] →
      Reading y mt blobs sig s rest
  | all : s.buffer = [] → rest = [] → Complete y mt blobs sig s → blobs.length < 2 ^ 32 →
      Reading y mt blobs sig s rest

/-- The manifest says where the signature is. -/
structure SignatureAt (blobs sig : Bytes) (m : Manifest) : Prop where
  offset : m.signaturesOffset.map UInt64.toNat = some blobs.length
  size : m.signaturesSize.map UInt64.toNat = some sig.length

open Performer

/-- Copying into the buffer moves the border of the bytes that are left. -/
lemma Reading.copy (h : Reading y mt blobs sig s rest) (max : Nat) :
    Reading y mt blobs sig (s.copyDataToBuffer rest max).1 (s.copyDataToBuffer rest max).2 := by
  cases h with
  | part pre hdata hoff hpay hsigned hsig =>
    refine .part pre ?_ hoff hpay hsigned hsig
    simp only [copyDataToBuffer]
    rw [append_assoc, take_append_drop]
    exact hdata
  | all hbuf hrest hdone hsmall =>
    subst hrest
    refine .all ?_ (by simp [copyDataToBuffer])
      { hdone with } hsmall
    simp [copyDataToBuffer, hbuf]

/-- Whoever is at the offset of the signature has only the signature before it. -/
lemma signature_in_buffer
    (hdata : pre ++ (s.buffer ++ rest) = blobs ++ sig) (hoff : pre.length = blobs.length)
    (hlen : sig.length ≤ s.buffer.length) : pre = blobs ∧ s.buffer = sig ∧ rest = [] := by
  obtain ⟨rfl, hsig⟩ := append_inj hdata hoff
  have htotal := congrArg List.length hsig
  rw [length_append] at htotal
  have hnil : rest = [] := length_eq_zero_iff.mp (by omega)
  subst hnil
  exact ⟨rfl, by simpa using hsig, rfl⟩

/-- Taking the signature out of the buffer ends the reading. -/
lemma complete_of_extract {n : Nat}
    (hdata : pre ++ (s.buffer ++ rest) = blobs ++ sig) (hoff : s.bufferOffset = pre.length)
    (hpay : s.payloadHash = y ++ pre) (hsigned : s.signedHash = mt ++ pre)
    (hpre : pre.length = blobs.length) (hn : n = sig.length) (hlen : n ≤ s.buffer.length) :
    rest = [] ∧ Complete y mt blobs sig
      (({ s with signaturesMessageData := s.buffer.take n }.setPref
        (.signatureBlob (s.buffer.take n))).discardBuffer true 0) := by
  obtain ⟨rfl, hbuf, hrest⟩ := signature_in_buffer hdata hpre (hn ▸ hlen)
  refine ⟨hrest, ?_, ?_, ?_, ?_⟩
  · simp [discardBuffer, setPref, hoff, hbuf]
  · simp [discardBuffer, setPref, hpay, hbuf]
  · simp [discardBuffer, setPref, hsigned]
  · simp only [discardBuffer, setPref]
    rw [hbuf, take_of_length_le hn.ge]

/-- With everything read, an operation changes nothing of it. -/
lemma Complete.effect (h : Complete y mt blobs sig s)
    (hbuf : s.buffer = []) (heffect : OperationEffect op s s') :
    s'.buffer = [] ∧ Complete y mt blobs sig s' := by
  cases heffect with
  | consumed d hoffset hlen =>
    refine ⟨rfl, ?_, ?_, ?_, h.signature⟩
    · simp [discardBuffer, hbuf, h.bufferOffset]
    · simp [discardBuffer, hbuf, h.payloadHash]
    · simp [discardBuffer, hbuf, h.signedHash]
  | device d => exact ⟨hbuf, h.bufferOffset, h.payloadHash, h.signedHash, h.signature⟩
  | signature offset size htype hoffset hso hss heqo heqs hlen hempty =>
    have hnil : sig = [] := h.signature.symm.trans hempty
    refine ⟨rfl, ?_, ?_, ?_, ?_⟩
    · simp [discardBuffer, setPref, hbuf, h.bufferOffset]
    · simp [discardBuffer, setPref, hbuf, h.payloadHash]
    · simp [discardBuffer, setPref, h.signedHash]
    · simp [discardBuffer, setPref, hbuf, hnil]

section

variable (h : Reading y mt blobs sig s rest)

include h

/-- An operation moves the performer on. -/
lemma Reading.effect (hat : SignatureAt blobs sig s.manifest) (heffect : OperationEffect op s s') :
    Reading y mt blobs sig s' rest := by
  cases h with
  | all hbuf hrest hdone hsmall =>
    obtain ⟨hbuf', hdone'⟩ := hdone.effect hbuf heffect
    exact .all hbuf' hrest hdone' hsmall
  | part pre hdata hoff hpay hsigned hsig =>
    cases heffect with
    | consumed d hoffset hlen =>
      refine .part (pre ++ s.buffer) ?_ ?_ ?_ ?_ hsig
      · simpa [discardBuffer] using hdata
      · simp [discardBuffer, hoff]
      · simp [discardBuffer, hpay]
      · simp [discardBuffer, hsigned]
    | device d => exact .part pre hdata hoff hpay hsigned hsig
    | signature offset size htype hoffset hso hss heqo heqs hlen hempty =>
      -- the operation is the one for the signature, so the buffer is the signature
      have hpre := Option.some.inj (hso ▸ hat.offset)
      have hsize := Option.some.inj (hss ▸ hat.size)
      have hsmall : op.offset < 2 ^ 32 := (op.dataOffset.getD 0).toNat_lt
      obtain ⟨hrest, hdone⟩ := complete_of_extract hdata hoff hpay hsigned
        (by omega) (by omega) hlen
      exact .all rfl hrest hdone (by omega)

/-- The records and the preferences play no part. -/
lemma Reading.done {before : Performer D} :
    Reading y mt blobs sig (operationDone before s op) rest := by
  obtain ⟨prefs, last, history, heq⟩ := operationDone_frame before s op
  rw [heq]
  cases h with
  | part pre hdata hoff hpay hsigned hsig => exact .part pre hdata hoff hpay hsigned hsig
  | all hbuf hrest hdone hsmall =>
    exact .all hbuf hrest
      { hdone with } hsmall

lemma Reading.withDevice (d : D) (p : Nat) :
    Reading y mt blobs sig { s with device := d, currentPartition := p } rest := by
  cases h with
  | part pre hdata hoff hpay hsigned hsig => exact .part pre hdata hoff hpay hsigned hsig
  | all hbuf hrest hdone hsmall =>
    exact .all hbuf hrest
      { hdone with } hsmall

end

section

variable (h : Reading y mt blobs sig s bytes)

include h

/-- A round of the loop moves the performer on. -/
lemma Reading.round (hat : SignatureAt blobs sig s.manifest)
    (hround : Round env s bytes op s' rest) : Reading y mt blobs sig s' rest := by
  obtain ⟨-, d, p, e, t, -, -, hperf, rfl, rfl⟩ := hround
  have hcopied := (h.withDevice d p).copy op.length
  exact (hcopied.effect hat (performOperation_effect hperf)).done

/-! ## The operation for the signature -/

omit h in
/-- An operation that is the signature's extracts it. -/
theorem performOperation_signature {offset size : UInt64}
    (htype : op.type = .replace) (hso : s.manifest.signaturesOffset = some offset)
    (hss : s.manifest.signaturesSize = some size) (hoffset : offset.toNat = op.offset)
    (hsize : size.toNat = op.length) (hempty : s.signaturesMessageData = [])
    (hbo : s.bufferOffset = op.offset) (hlen : op.length ≤ s.buffer.length) :
    performOperation env s op = (true, .success,
      ({ s with signaturesMessageData := s.buffer.take op.length }.setPref
        (.signatureBlob (s.buffer.take op.length))).discardBuffer true 0) := by
  have hx : Extracts s op := ⟨htype, by rw [hso, Option.map_some, hoffset],
    by rw [hss, Option.map_some, hsize], hempty, hbo, hlen⟩
  have hextract : extractSignatureMessageFromOperation s op =
      (true, s.keepSignature op.length) := by
    rcases extractFromOperation_eq s op with ⟨-, hextract⟩ | ⟨hno, -⟩
    · exact hextract
    · exact absurd hx hno
  have hplace : dataInPlace s op = true := dataInPlace_iff.mpr ⟨hbo, hlen⟩
  unfold performOperation performReplaceOperation
  rw [htype, hplace, hextract]
  rfl

section

variable (hat : SignatureAt blobs sig s.manifest)

include hat

/-- After the operation for the signature everything has been read. -/
lemma Reading.signature_round
    (htype : op.type = .replace) (hdata : op.dataOffset.isSome) (hoffset : op.offset = blobs.length)
    (hlength : op.length = sig.length) (hround : Round env s bytes op s' rest) :
    Complete y mt blobs sig s' := by
  obtain ⟨-, d, p, e, t, -, -, hperf, rfl, rfl⟩ := hround
  have hcopied := (h.withDevice d p).copy op.length
  generalize hc : ({ s with device := d, currentPartition := p } : Performer D).copyDataToBuffer
    bytes op.length = c at hperf hcopied ⊢
  have hat' : SignatureAt blobs sig c.1.manifest := by
    rw [← hc]
    exact hat
  have heffect := performOperation_effect hperf
  suffices hdone : Complete y mt blobs sig t by
    obtain ⟨prefs, last, history, heq⟩ := operationDone_frame c.1 t op
    rw [heq]
    exact { hdone with }
  cases hcopied with
  | all hbuf hrest hdone hsmall => exact (hdone.effect hbuf heffect).2
  | part pre hpre hoff hpay hsigned hsig =>
    -- it was carried out, so its data was in place
    obtain ⟨hbo, hlen⟩ : c.1.bufferOffset = op.offset ∧ op.length ≤ c.1.buffer.length := by
      cases heffect with
      | consumed _ hbo hlen | signature _ _ _ hbo _ _ _ _ hlen => exact ⟨hbo, hlen⟩
      | device d hcase =>
        rcases hcase with ⟨hnone, -⟩ | hmove | hcopy
        · rw [hnone] at hdata
          cases hdata
        · rw [htype] at hmove
          cases hmove
        · rw [htype] at hcopy
          cases hcopy
    obtain ⟨offset, hso, hoffset'⟩ := Option.map_eq_some_iff.mp hat'.offset
    obtain ⟨size, hss, hsize'⟩ := Option.map_eq_some_iff.mp hat'.size
    rw [performOperation_signature htype hso hss (by omega) (by omega) hsig hbo hlen] at hperf
    obtain rfl : _ = t := (Prod.mk.inj (Prod.mk.inj hperf).2).2
    exact (complete_of_extract hpre hoff hpay hsigned (by omega) hlength hlen).2

/-! ## To the end -/

/-- The loop over the operations moves the performer on. -/
lemma Reading.loop {left : Nat} (hloc : Located s)
    (hle : s.nextOperationNum + left ≤ s.numTotalOperations)
    (hloop : operationsLoop env left s bytes = .go s' rest) :
    Reading y mt blobs sig s' rest ∧ Located s' ∧ s'.plan = s.plan ∧
      s'.nextOperationNum = s.nextOperationNum + left := by
  have hrounds := operationsLoop_go env
    (P := fun t r => Reading y mt blobs sig t r ∧ SignatureAt blobs sig t.manifest)
    (fun t bytes op t' rest _ hP hround => by
      have hm : t'.manifest = t.manifest := congrArg Plan.manifest hround.frame.2.1
      exact ⟨hP.1.round hP.2 hround, hm ▸ hP.2⟩)
    left s bytes s' rest hloc hle ⟨h, hat⟩ hloop
  exact ⟨hrounds.1.1, hrounds.2⟩

/-- When the last operation is the signature's, everything is read at the end. -/
lemma Reading.complete_of_last (hloc : Located s)
    (hlast : s.operations.getLast? = some op) (hlt : s.nextOperationNum < s.numTotalOperations)
    (htype : op.type = .replace) (hdata : op.dataOffset.isSome) (hoffset : op.offset = blobs.length)
    (hlength : op.length = sig.length)
    (hloop : operationsLoop env (s.numTotalOperations - s.nextOperationNum) s bytes = .go s' rest) :
    Complete y mt blobs sig s' := by
  obtain ⟨left, hleft⟩ : ∃ left, s.numTotalOperations - s.nextOperationNum = left + 1 :=
    ⟨s.numTotalOperations - s.nextOperationNum - 1, by omega⟩
  rw [hleft, operationsLoop_add] at hloop
  cases hfirst : operationsLoop env left s bytes with
  | stop ok e t =>
    rw [hfirst] at hloop
    cases hloop
  | go t r =>
    rw [hfirst] at hloop
    obtain ⟨hread, hloc', hplan, hnext⟩ := h.loop hat hloc (by omega) hfirst
    have htotal : t.numTotalOperations = s.numTotalOperations :=
      congrArg Plan.numTotalOperations hplan
    have hmanifest : t.manifest = s.manifest := congrArg Plan.manifest hplan
    have hops := operations_of_plan hplan
    obtain ⟨op', hround⟩ := hloc'.round (by omega) hloop
    have hop : op' = op := by
      have hthis := hround.operation
      have hlen := hloc.total_eq
      rw [hops, hnext] at hthis
      rw [List.getLast?_eq_getElem?] at hlast
      rw [show s.nextOperationNum + left = s.operations.length - 1 by omega, hlast] at hthis
      exact (Option.some.inj hthis).symm
    subst hop
    exact hread.signature_round (hmanifest ▸ hat) htype hdata hoffset hlength hround

end

end

/-- Without the signature a prefix has been read. -/
lemma Reading.exists_pre (h : Reading y mt blobs sig s rest)
    (hempty : s.signaturesMessageData = []) :
    ∃ pre, pre ++ (s.buffer ++ rest) = blobs ++ sig ∧ s.bufferOffset = pre.length ∧
      s.payloadHash = y ++ pre ∧ s.signedHash = mt ++ pre := by
  cases h with
  | part pre hdata hoff hpay hsigned => exact ⟨pre, hdata, hoff, hpay, hsigned⟩
  | all hbuf hrest hdone hsmall =>
    obtain rfl : sig = [] := hdone.signature.symm.trans hempty
    refine ⟨blobs, by rw [hbuf, hrest]; rfl, ?_, ?_, hdone.signedHash⟩
    · rw [hdone.bufferOffset, append_nil]
    · rw [hdone.payloadHash, append_nil]

/-- The end of `Write` reads the signature of a payload of version 2. -/
lemma Reading.trailing {e : ErrorCode} (h : Reading y mt blobs sig s rest)
    (hat : SignatureAt blobs sig s.manifest)
    (hmajor : s.majorPayloadVersion = kBrilloMajorPayloadVersion)
    (hread : readSignature s rest = (true, e, s')) : Complete y mt blobs sig s' := by
  obtain ⟨offset, hso, hoffset⟩ := Option.map_eq_some_iff.mp hat.offset
  obtain ⟨size, hss, hsize⟩ := Option.map_eq_some_iff.mp hat.size
  by_cases hempty : s.signaturesMessageData = []
  · by_cases hbo : offset.toNat = s.bufferOffset
    · have hawaits : Awaits s sig.length :=
        ⟨by rw [hso, Option.map_some, hbo], by rw [hss, Option.map_some, hsize], hmajor, hempty⟩
      rw [hawaits.readSignature_eq] at hread
      obtain rfl : _ = s' := (Prod.mk.inj (Prod.mk.inj hread).2).2
      obtain ⟨pre0, hdata0, hoff0, -, -⟩ := h.exists_pre hempty
      obtain ⟨pre, hdata, hoff, hpay, hsigned⟩ := (h.copy sig.length).exists_pre hempty
      have hpre0 : pre0.length = blobs.length := by omega
      have hbo' : (s.copyDataToBuffer rest sig.length).1.bufferOffset = s.bufferOffset := rfl
      -- all of the signature is there to be copied
      have hlen : (s.copyDataToBuffer rest sig.length).1.buffer.length = sig.length := by
        have hsig := congrArg List.length (append_inj hdata0 hpre0).2
        rw [length_append] at hsig
        simp only [copyDataToBuffer, length_append, length_take,
          room_of_le (show s.buffer.length ≤ sig.length by omega)]
        omega
      rw [if_neg (by omega)]
      obtain ⟨-, hdone⟩ := complete_of_extract hdata hoff hpay hsigned (by omega)
        rfl hlen.ge
      unfold takeSignature
      obtain ⟨prefs, last, history, heq⟩ := checkpoint_frame
        (({ (s.copyDataToBuffer rest sig.length).1 with signaturesMessageData :=
            (s.copyDataToBuffer rest sig.length).1.buffer.take sig.length }.setPref
          (.signatureBlob ((s.copyDataToBuffer rest sig.length).1.buffer.take
            sig.length))).discardBuffer true 0)
      rw [heq]
      exact { hdone with }
    · unfold readSignature at hread
      rw [hso, hss] at hread
      dsimp only at hread
      rw [if_pos ⟨hmajor, hempty⟩, if_pos hbo] at hread
      cases hread
  · have hskip : readSignature s rest = (true, .success, s) := by
      unfold readSignature
      rw [hso, hss]
      dsimp only
      rw [if_neg fun hcond => hempty hcond.2]
    rw [hskip] at hread
    obtain rfl : s = s' := (Prod.mk.inj (Prod.mk.inj hread).2).2
    cases h with
    | part pre hdata hoff hpay hsigned hsig => exact absurd hsig hempty
    | all hbuf hrest hdone hsmall => exact hdone

end UpdateEngine
