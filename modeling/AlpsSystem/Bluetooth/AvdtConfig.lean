import AlpsSystem.Lib.Memory
import AlpsSystem.Lib.Traced

/-!
# Capabilities in AVDTP messages

`avdt_msg_prs_cfg` of `bt/stack/avdt/avdt_msg.cc` parses elements: a category, a length and that
many bytes. It writes in its arrays only, and reads on where a message ends inside an element.
-/

namespace Avdt

open Traced

/-- What is parsed of a `tAVDT_CFG`, with arrays of 20 and 90 bytes. -/
structure Cfg where
  codecInfo : Memory
  protectInfo : Memory
  (numCodec numProtect recovType recovMrws recovMnmp hdrcmpMask : UInt8)
  pscMask : UInt16

/-- `avdt_msg_ie_len_min`, `avdt_msg_ie_len_max` and `avdt_msg_ie_err` of a category. -/
def ie : Nat → Nat × Nat × UInt8
  | 1 => (0, 0, 0x23)
  | 2 => (0, 0, 0x11)
  | 3 => (3, 3, 0x25)
  | 4 => (2, 255, 0x27)
  | 5 => (1, 1, 0x26)
  | 6 => (3, 7, 0x28)
  | 7 => (2, 255, 0x80)
  | _ => (0, 0, 0x80)

/-- The variables of the loop; `p` is an offset in the message. -/
structure Parser where
  cfg : Cfg
  p : Nat := 0
  elem : Nat := 0
  err : UInt8 := 0
  protectOffset : Nat := 0

variable (message : Memory)

def byteAt (p : Nat) : Traced UInt8 := ⟨message p, [⟨p, 1⟩]⟩

/-- The length of an element is put into an array, and `count` of its bytes after it. -/
def copyElement (p : Nat) (info : Memory) (offset elemLen count : Nat) : Traced Memory :=
  ⟨(info.store offset 1 elemLen).copy (offset + 1) message p count, [⟨p, count⟩]⟩

def prsRecov (s : Parser) : Traced Parser := do
  let recovType ← byteAt message s.p
  let recovMrws ← byteAt message (s.p + 1)
  let recovMnmp ← byteAt message (s.p + 2)
  let err := if recovType ≠ 1 then 0x22
    else if recovMrws < 1 ∨ recovMrws > 0x18 ∨ recovMnmp < 1 ∨ recovMnmp > 0x18 then 0x25 else 0
  pure { s with p := s.p + 3, err, cfg := { s.cfg with recovType, recovMrws, recovMnmp } }

def prsProtect (elemLen : Nat) (s : Parser) : Traced Parser :=
  let s := { s with cfg.pscMask := s.cfg.pscMask &&& 0xFFEF }
  if elemLen + s.protectOffset < 90 then do
    let protectInfo ← copyElement message s.p s.cfg.protectInfo s.protectOffset elemLen elemLen
    pure { s with
      p := s.p + elemLen, protectOffset := s.protectOffset + 1 + elemLen
      cfg := { s.cfg with protectInfo, numProtect := s.cfg.numProtect + 1 } }
  else pure { s with p := s.p + elemLen }

def prsCodec (elemLen : Nat) (s : Parser) : Traced Parser := do
  let codecInfo ← copyElement message s.p s.cfg.codecInfo 0 elemLen (min elemLen 19)
  let pscMask := s.cfg.pscMask &&& 0xFF7F
  pure { s with
    p := s.p + elemLen
    cfg := { s.cfg with pscMask, codecInfo, numCodec := s.cfg.numCodec + 1 } }

def prsSwitch (elemLen : Nat) (s : Parser) : Traced Parser :=
  match s.elem with
  | 3 => prsRecov message s
  | 4 => prsProtect message elemLen s
  | 5 => do
    let hdrcmpMask ← byteAt message s.p
    pure { s with p := s.p + 1, cfg := { s.cfg with hdrcmpMask } }
  | 7 => prsCodec message elemLen s
  | 8 => pure s
  | _ => pure { s with p := s.p + elemLen }

/-- After the length of an element; the signals 3 and 5 are those to configure. -/
def prsBody (sigId elemLen : Nat) (s : Parser) : Traced Parser :=
  if s.elem = 0 ∨ s.elem > 8 then
    if sigId = 3 ∨ sigId = 5 then pure { s with err := 0x17 }
    else pure { s with p := s.p + elemLen }
  else if elemLen > (ie s.elem).2.1 ∨ elemLen < (ie s.elem).1 then
    pure { s with err := (ie s.elem).2.2 }
  else
    prsSwitch message elemLen { s with cfg.pscMask := s.cfg.pscMask ||| 1 <<< s.elem.toUInt16 }

def prsElement (sigId : Nat) (s : Parser) : Traced Parser := do
  let elem ← byteAt message s.p
  let elemLen ← byteAt message (s.p + 1)
  prsBody message sigId elemLen.toNat { s with elem := elem.toNat, p := s.p + 2 }

/-- The loop, unless it has more than a number of rounds. -/
def prsLoop (sigId len rounds : Nat) (s : Parser) : Traced (Option Parser) :=
  if s.p < len ∧ s.err = 0 then
    if len - s.p < 2 then pure (some { s with err := 0x18 })
    else
      match rounds with
      | 0 => pure none
      | rounds + 1 => prsElement message sigId s >>= prsLoop sigId len rounds
  else pure (some s)

/-- `avdt_msg_prs_cfg`, for a configuration that is there. -/
def prsCfg (cfg : Cfg) (len sigId : Nat) : Traced (Option Parser) :=
  prsLoop message sigId len len
    { cfg := { cfg with pscMask := 0, numCodec := 0, numProtect := 0 } }

/-! ## Elements of a message -/

/-- How many bytes are read of the body of an element. -/
def bodyLength (elem elemLen protectOffset : Nat) : Nat :=
  match elem with
  | 3 => 3
  | 4 => if elemLen + protectOffset < 90 then elemLen else 0
  | 5 => 1
  | 7 => min elemLen 19
  | _ => 0

/-- The same for the element at `p`, none if its length is an error. -/
def bodyRead (p protectOffset : Nat) : Nat :=
  let elem := (message p).toNat
  let elemLen := (message (p + 1)).toNat
  if elemLen > (ie elem).2.1 ∨ elemLen < (ie elem).1 then 0
  else bodyLength elem elemLen protectOffset

/-- The values of a recovery element. -/
def RecovOk (p : Nat) : Prop :=
  message p = 1 ∧ ¬ (message (p + 1) < 1 ∨ message (p + 1) > 0x18 ∨
    message (p + 2) < 1 ∨ message (p + 2) > 0x18)

/-- The element is no error. -/
def Accepted (sigId p : Nat) : Prop :=
  let elem := (message p).toNat
  let elemLen := (message (p + 1)).toNat
  if elem = 0 ∨ elem > 8 then ¬ (sigId = 3 ∨ sigId = 5)
  else ¬ (elemLen > (ie elem).2.1 ∨ elemLen < (ie elem).1) ∧ (elem = 3 → RecovOk message (p + 2))

/-- What is used of `protect_info` after an element. -/
def offsetAfter (elem elemLen protectOffset : Nat) : Nat :=
  if elem = 4 ∧ elemLen + protectOffset < 90 then protectOffset + 1 + elemLen else protectOffset

/-- From an element at `p` on, no error comes before that at `q`. -/
inductive Reached (sigId len : Nat) : (p protectOffset q protectOffset' : Nat) → Prop
  | here {p offset : Nat} : Reached sigId len p offset p offset
  | next {p offset q offset' : Nat} : p + 2 ≤ len → Accepted message sigId p →
      Reached sigId len (p + 2 + (message (p + 1)).toNat)
        (offsetAfter (message p).toNat (message (p + 1)).toNat offset) q offset' →
      Reached sigId len p offset q offset'

/-- From an element at `p` on, the bytes that are read of the elements are in the message. -/
def Covered (sigId len p protectOffset : Nat) : Prop :=
  ∀ q offset, Reached message sigId len p protectOffset q offset → q + 2 ≤ len →
    q + 2 + bodyRead message q offset ≤ len

/-- Nothing after the arrays is written. -/
structure Safe (cfg : Cfg) (s : Parser) : Prop where
  codec : ∀ i ≥ 20, s.cfg.codecInfo i = cfg.codecInfo i
  protect : ∀ i ≥ 90, s.cfg.protectInfo i = cfg.protectInfo i

/-- The rest of an element is parsed: from `p` on, `count` bytes of it are read. -/
structure Parses (cfg : Cfg) (len p count stop offset : Nat) (accepted : Prop)
    (x : Traced Parser) : Prop where
  safe : Safe cfg x.value
  accepts : x.value.err = 0 ↔ accepted
  next : accepted → x.value.p = stop ∧ x.value.protectOffset = offset
  reads : x.Inside len ↔ p + count ≤ len

variable {message} {cfg : Cfg} {s : Parser} {elemLen sigId len p offset count n : Nat}
  {info : Memory}

lemma copyElement_outside (h : offset + 1 + count ≤ n) {i : Nat} (hi : i ≥ n) :
    (copyElement message p info offset elemLen count).value i = info i := by
  show ((info.store offset 1 elemLen).copy (offset + 1) message p count) i = info i
  rw [Memory.copy_outside (by omega), Memory.store_outside (by omega)]

lemma ie_err (elem : Nat) : (ie elem).2.2 ≠ 0 := by
  unfold ie
  split <;> decide

lemma bodyLength_unknown {elem : Nat} (h : elem = 0 ∨ elem > 8) :
    bodyLength elem elemLen offset = 0 := by
  unfold bodyLength
  split <;> first | rfl | omega

lemma covered_iff (hp : p + 2 ≤ len) : Covered message sigId len p offset ↔
    p + 2 + bodyRead message p offset ≤ len ∧ (Accepted message sigId p →
      Covered message sigId len (p + 2 + (message (p + 1)).toNat)
        (offsetAfter (message p).toNat (message (p + 1)).toNat offset)) := by
  constructor
  · exact fun h => ⟨h p offset .here hp, fun hacc q o hq => h q o (.next hp hacc hq)⟩
  · rintro ⟨hhere, hnext⟩ q o (_ | ⟨-, hacc, hq⟩) hlen
    · exact hhere
    · exact hnext hacc q o hq hlen

lemma covered_of_end (hp : len < p + 2) : Covered message sigId len p offset := by
  rintro q o (_ | ⟨hle, -, -⟩) hlen
  · omega
  · omega

section

variable (h : Safe cfg s)

include h

lemma prsRecov_parses : Parses cfg len s.p 3 (s.p + 3) s.protectOffset (RecovOk message s.p)
    (prsRecov message s) where
  safe := { h with }
  accepts := by
    show (if _ then _ else _ : UInt8) = 0 ↔ _
    unfold RecovOk
    split_ifs <;> simp_all [byteAt]
  next _ := ⟨rfl, rfl⟩
  reads := by
    simp only [prsRecov, byteAt, inside_bind_iff, inside_access_iff, inside_pure, and_true]
    omega

variable (herr : s.err = 0)

include herr

lemma prsCodec_parses : Parses cfg len s.p (min elemLen 19) (s.p + elemLen) s.protectOffset True
    (prsCodec message elemLen s) := by
  refine ⟨⟨fun i hi => ?_, h.protect⟩, iff_of_true herr trivial, fun _ => ⟨rfl, rfl⟩, ?_⟩
  · exact (copyElement_outside (by omega) hi).trans (h.codec i hi)
  · simp [prsCodec, copyElement, inside_bind_iff, inside_access_iff]

variable (hp : s.p ≤ len)

include hp

lemma prsProtect_parses :
    Parses cfg len s.p (if elemLen + s.protectOffset < 90 then elemLen else 0) (s.p + elemLen)
      (if elemLen + s.protectOffset < 90 then s.protectOffset + 1 + elemLen else s.protectOffset)
      True (prsProtect message elemLen s) := by
  unfold prsProtect
  dsimp only
  split
  case isTrue hroom =>
    refine ⟨⟨h.codec, fun i hi => ?_⟩, iff_of_true herr trivial, fun _ => ⟨rfl, rfl⟩, ?_⟩
    · exact (copyElement_outside (by omega) hi).trans (h.protect i hi)
    · simp [copyElement, inside_bind_iff, inside_access_iff]
  case isFalse =>
    exact ⟨{ h with }, iff_of_true herr trivial, fun _ => ⟨rfl, rfl⟩, iff_of_true inside_pure hp⟩

/-- The table fixes the length of the elements that do not use it. -/
lemma prsSwitch_parses (hlen : ¬ (elemLen > (ie s.elem).2.1 ∨ elemLen < (ie s.elem).1)) :
    Parses cfg len s.p (bodyLength s.elem elemLen s.protectOffset) (s.p + elemLen)
      (offsetAfter s.elem elemLen s.protectOffset) (s.elem = 3 → RecovOk message s.p)
      (prsSwitch message elemLen s) := by
  unfold prsSwitch
  split
  case h_1 helem =>
    obtain rfl : elemLen = 3 := by simp only [helem, ie] at hlen; omega
    simpa [helem, bodyLength, offsetAfter] using prsRecov_parses h
  case h_2 helem => simpa [helem, bodyLength, offsetAfter] using prsProtect_parses h herr hp
  case h_3 helem =>
    obtain rfl : elemLen = 1 := by simp only [helem, ie] at hlen; omega
    refine ⟨{ h with }, iff_of_true herr (by simp [helem]),
      fun _ => ⟨rfl, by simp [helem, offsetAfter]⟩, ?_⟩
    simp [helem, bodyLength, byteAt, inside_bind_iff, inside_access_iff]
  case h_4 helem => simpa [helem, bodyLength, offsetAfter] using prsCodec_parses h herr
  case h_5 helem =>
    obtain rfl : elemLen = 0 := by simp only [helem, ie] at hlen; omega
    refine ⟨h, iff_of_true herr (by simp [helem]), fun _ => ⟨rfl, by simp [helem, offsetAfter]⟩, ?_⟩
    exact iff_of_true inside_pure (by simpa [helem, bodyLength] using hp)
  case h_6 h3 h4 h5 h7 h8 =>
    have hbody : bodyLength s.elem elemLen s.protectOffset = 0 := by
      unfold bodyLength
      split <;> first | rfl | contradiction
    rw [hbody, offsetAfter, if_neg fun h => h4 h.1]
    exact ⟨{ h with }, iff_of_true herr fun h => absurd h h3, fun _ => ⟨rfl, rfl⟩,
      iff_of_true inside_pure hp⟩

lemma prsBody_parses (sigId : Nat) (hstart : s.p = p + 2) (helem : s.elem = (message p).toNat) :
    Parses cfg len s.p (bodyRead message p s.protectOffset) (p + 2 + (message (p + 1)).toNat)
      (offsetAfter (message p).toNat (message (p + 1)).toNat s.protectOffset)
      (Accepted message sigId p)
      (prsBody message sigId (message (p + 1)).toNat s) := by
  unfold prsBody Accepted bodyRead
  rw [← hstart, ← helem]
  generalize (message (p + 1)).toNat = elemLen
  by_cases hunknown : s.elem = 0 ∨ s.elem > 8
  · have hoffset : offsetAfter s.elem elemLen s.protectOffset = s.protectOffset :=
      if_neg (by omega)
    simp only [if_pos hunknown, bodyLength_unknown hunknown, ite_self, hoffset]
    split
    case isTrue hconfig =>
      exact ⟨{ h with }, iff_of_false (by simp) (not_not_intro hconfig),
        fun hnot => absurd hconfig hnot, iff_of_true inside_pure hp⟩
    case isFalse hconfig =>
      exact ⟨{ h with }, iff_of_true herr hconfig, fun _ => ⟨rfl, rfl⟩, iff_of_true inside_pure hp⟩
  simp only [if_neg hunknown]
  split
  case isTrue hlen =>
    exact ⟨{ h with }, iff_of_false (ie_err _) fun hacc => hacc.1 hlen,
      fun hacc => absurd hlen hacc.1, iff_of_true inside_pure hp⟩
  case isFalse hlen =>
    have hmask : Safe cfg { s with cfg.pscMask := s.cfg.pscMask ||| 1 <<< s.elem.toUInt16 } :=
      { h with }
    simpa only [hlen, not_false_eq_true, true_and] using prsSwitch_parses hmask herr hp hlen

end

section

variable (h : Safe cfg s) (herr : s.err = 0) (hp : s.p + 2 ≤ len)

include h herr hp

lemma prsElement_parses :
    Parses cfg len (s.p + 2) (bodyRead message s.p s.protectOffset)
      (s.p + 2 + (message (s.p + 1)).toNat)
      (offsetAfter (message s.p).toNat (message (s.p + 1)).toNat s.protectOffset)
      (Accepted message sigId s.p) (prsElement message sigId s) := by
  have hhead : Safe cfg { s with elem := (message s.p).toNat, p := s.p + 2 } := { h with }
  obtain ⟨hsafe, hacc, hnext, hreads⟩ :=
    prsBody_parses hhead herr hp sigId (p := s.p) rfl rfl
  refine ⟨hsafe, hacc, hnext, ?_⟩
  simp only [prsElement, byteAt, inside_bind_iff, inside_access_iff]
  exact ⟨fun h => hreads.mp h.2.2, fun h => ⟨by omega, by omega, hreads.mpr h⟩⟩

end

lemma prsLoop_confined {rounds : Nat} (h : Safe cfg s) (hrounds : s.err = 0 → len ≤ s.p + rounds) :
    (∃ s', (prsLoop message sigId len rounds s).value = some s' ∧ Safe cfg s') ∧
      (s.err = 0 → ((prsLoop message sigId len rounds s).Inside len ↔
        Covered message sigId len s.p s.protectOffset)) := by
  induction rounds generalizing s with
  | zero =>
    have hstop : ¬ (s.p < len ∧ s.err = 0) := fun hgo => by have := hrounds hgo.2; omega
    rw [prsLoop, if_neg hstop]
    refine ⟨⟨s, rfl, h⟩, fun herr => iff_of_true inside_pure (covered_of_end ?_)⟩
    have := hrounds herr
    omega
  | succ rounds ih =>
    rw [prsLoop]
    split
    case isFalse hstop =>
      refine ⟨⟨s, rfl, h⟩, fun herr => iff_of_true inside_pure (covered_of_end ?_)⟩
      simp only [herr, and_true] at hstop
      omega
    case isTrue hgo =>
      split
      case isTrue =>
        exact ⟨⟨_, rfl, { h with }⟩, fun _ => iff_of_true inside_pure (covered_of_end (by omega))⟩
      case isFalse hlong =>
        have hstep : Parses cfg len _ _ _ _ _ (prsElement message sigId s) :=
          prsElement_parses h hgo.2 (by omega)
        have hnext := hrounds hgo.2
        obtain ⟨hends, hinside⟩ := ih hstep.safe fun herr => by
          rw [(hstep.next (hstep.accepts.mp herr)).1]
          omega
        refine ⟨hends, fun _ => ?_⟩
        rw [inside_bind_iff, hstep.reads, covered_iff (by omega)]
        refine and_congr_right fun _ => ?_
        by_cases hacc : Accepted message sigId s.p
        · obtain ⟨hp, hoffset⟩ := hstep.next hacc
          rw [hinside (hstep.accepts.mpr hacc), hp, hoffset]
          simp [hacc]
        · -- the loop ends at an error
          have herr : (prsElement message sigId s).value.err ≠ 0 := hstep.accepts.not.mpr hacc
          refine iff_of_true ?_ fun h => absurd h hacc
          cases rounds <;> (rw [prsLoop, if_neg (by simp [herr])]; exact inside_pure)

end Avdt
