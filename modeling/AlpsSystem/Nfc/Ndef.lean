import AlpsSystem.Lib.BigEndian
import AlpsSystem.Lib.Memory

/-!
# NDEF messages

The functions of `ndef_utils.c` that check and read a message.  A message is memory, with offsets
from its start, so that whatever its lengths say is followed.

* `payloadLen`, `typeLen`, `idLen` — the lengths at the start of a record.
-/

namespace Nfc.Ndef

/-- The status codes of the validation, without `NDEF_OK`. -/
inductive Error where
  | msgTooShort
  | msgNoMsgBegin
  | msgNoMsgEnd
  | msgExtraMsgBegin
  | msgUnexpectedChunk
  | msgInvalidEmptyRec
  | msgInvalidChunk
  | msgLengthMismatch
  | msgInvalidType
  deriving DecidableEq, Repr

/-! ## The first byte of a record -/

/-- `NDEF_MB_MASK`. -/
def isMessageBegin (recHdr : UInt8) : Bool := recHdr &&& 0x80 != 0

/-- `NDEF_ME_MASK`. -/
def isMessageEnd (recHdr : UInt8) : Bool := recHdr &&& 0x40 != 0

/-- `NDEF_CF_MASK`. -/
def isChunk (recHdr : UInt8) : Bool := recHdr &&& 0x20 != 0

/-- `NDEF_SR_MASK`. -/
def isShortRecord (recHdr : UInt8) : Bool := recHdr &&& 0x10 != 0

/-- `NDEF_IL_MASK`. -/
def hasIdLength (recHdr : UInt8) : Bool := recHdr &&& 0x08 != 0

/-- `NDEF_TNF_MASK`. -/
def tnf (recHdr : UInt8) : UInt8 := recHdr &&& 0x07

def tnfEmpty : UInt8 := 0
def tnfWkt : UInt8 := 1
def tnfExt : UInt8 := 4
def tnfUnknown : UInt8 := 5
def tnfUnchanged : UInt8 := 6
def tnfReserved : UInt8 := 7

/-! ## The lengths of a record -/

section Lengths

variable (m : Memory) (p : Nat)

def typeLen : Nat := (m (p + 1)).toNat

/-- The payload length has 1 or 4 bytes. -/
def payloadLenSize : Nat := if isShortRecord (m p) then 1 else 4

def payloadLen : Nat :=
  if isShortRecord (m p) then (m (p + 2)).toNat else BigEndian.decode (m.slice (p + 2) 4)

/-- The ID length, if there is one, has 1 byte. -/
def idLenSize : Nat := if hasIdLength (m p) then 1 else 0

def idLen : Nat := if hasIdLength (m p) then (m (p + 2 + payloadLenSize m p)).toNat else 0

/-- Where the type field starts, after the lengths. -/
def headerEnd : Nat := p + 2 + payloadLenSize m p + idLenSize m p

/-- `payload_len + type_len + id_len`, in 32 bits. -/
def bodyLen : Nat := (payloadLen m p + typeLen m p + idLen m p) % 2 ^ 32

/-- Where the code continues after a record. -/
def recEnd : Nat := headerEnd m p + bodyLen m p

end Lengths

/-! ## Validation -/

/-- The rules for chunks; the result is whether the record is followed by another chunk. -/
def checkChunk (allowChunks inChunk : Bool) (recHdr : UInt8) (typeLen idLen : Nat) :
    Except Error Bool :=
  if isChunk recHdr then
    if !allowChunks then .error .msgUnexpectedChunk
    else if inChunk then
      if typeLen ≠ 0 ∨ idLen ≠ 0 ∨ tnf recHdr ≠ tnfUnchanged then .error .msgInvalidChunk
      else .ok true
    else if tnf recHdr = tnfUnchanged then .error .msgInvalidChunk
    else .ok true
  else if inChunk then
    if typeLen ≠ 0 ∨ idLen ≠ 0 ∨ tnf recHdr ≠ tnfUnchanged then .error .msgInvalidChunk
    else .ok false
  else if tnf recHdr = tnfUnchanged then .error .msgInvalidChunk
  else .ok false

/-- The rules for empty, unknown and external records. -/
def checkContents (recHdr : UInt8) (typeLen idLen payloadLen : Nat) : Except Error Unit :=
  if tnf recHdr = tnfEmpty ∧ (typeLen ≠ 0 ∨ idLen ≠ 0 ∨ payloadLen ≠ 0) then
    .error .msgInvalidEmptyRec
  else if tnf recHdr = tnfUnknown ∧ typeLen ≠ 0 then .error .msgLengthMismatch
  else if tnf recHdr = tnfExt ∧ typeLen = 0 then .error .msgLengthMismatch
  else .ok ()

/-- `NDEF_RTD_VALID_START` and `NDEF_RTD_VALID_END`. -/
def isValidTypeByte (b : UInt8) : Bool := decide (0x20 ≤ b) && decide (b ≤ 0x7E)

/-- The characters of the type field of external and well-known types. -/
def checkType (m : Memory) (pEnd p : Nat) : Except Error Unit :=
  if tnf (m p) = tnfExt ∨ tnf (m p) = tnfWkt then
    if headerEnd m p + typeLen m p > pEnd then .error .msgTooShort
    else if (m.slice (headerEnd m p) (typeLen m p)).all isValidTypeByte then .ok ()
    else .error .msgInvalidType
  else .ok ()

/-- The checks of the record at `p`; `first` stands for `count == 0`. -/
def checkRecord (m : Memory) (pEnd : Nat) (allowChunks first inChunk : Bool) (p : Nat) :
    Except Error Bool :=
  let recHdr := m p
  if p + 3 > pEnd then .error .msgTooShort
  else if tnf recHdr = tnfReserved then .error .msgInvalidChunk
  else if !first && isMessageBegin recHdr then .error .msgExtraMsgBegin
  else if isChunk recHdr ∧ isMessageBegin recHdr ∧ typeLen m p = 0 ∧ tnf recHdr ≠ tnfUnknown then
    .error .msgInvalidChunk
  else if !isShortRecord recHdr ∧ p + 2 + 4 > pEnd then .error .msgTooShort
  else if hasIdLength recHdr ∧ p + 2 + payloadLenSize m p + 1 > pEnd then .error .msgTooShort
  else if !hasIdLength recHdr ∧ tnf recHdr = tnfEmpty then .error .msgInvalidEmptyRec
  else do
    let inChunk ← checkChunk allowChunks inChunk recHdr (typeLen m p) (idLen m p)
    checkContents recHdr (typeLen m p) (idLen m p) (payloadLen m p)
    checkType m pEnd p
    return inChunk

/-- The loop over the records from `p` on.  It ends without a last record when `p` has passed the
end, which is the case once the fuel is used up. -/
def validateRecords (m : Memory) (pEnd : Nat) (allowChunks : Bool) :
    (fuel : Nat) → (first inChunk : Bool) → (p : Nat) → Except Error Unit
  | 0, _, _, _ => .error .msgNoMsgEnd
  | fuel + 1, first, inChunk, p =>
    if p < pEnd then
      match checkRecord m pEnd allowChunks first inChunk p with
      | .error error => .error error
      | .ok inChunk =>
        if isMessageEnd (m p) then
          if recEnd m p ≠ pEnd then .error .msgLengthMismatch else .ok ()
        else validateRecords m pEnd allowChunks fuel false inChunk (recEnd m p)
    else .error .msgNoMsgEnd

/-- `NDEF_MsgValidate`; `ok` stands for `NDEF_OK`. -/
def msgValidate (m : Memory) (msgLen : Nat) (allowChunks : Bool) : Except Error Unit :=
  if msgLen < 3 then .error .msgTooShort
  else if !isMessageBegin (m 0) then .error .msgNoMsgBegin
  else if tnf (m 0) = tnfUnchanged then .error .msgUnexpectedChunk
  else validateRecords m msgLen allowChunks msgLen true false 0

/-! ## Walking a message -/

/-- The loop of `NDEF_MsgGetNumRecs`; `none` if it does not end within `fuel` records. -/
def countRecs (m : Memory) : (fuel count p : Nat) → Option Nat
  | 0, _, _ => none
  | fuel + 1, count, p =>
    if isMessageEnd (m p) then some (count + 1) else countRecs m fuel (count + 1) (recEnd m p)

/-- `NDEF_MsgGetNumRecs`. -/
def msgGetNumRecs (fuel : Nat) (m : Memory) : Option Nat := countRecs m fuel 0 0

/-- `NDEF_MsgGetRecLength`. -/
def msgGetRecLength (m : Memory) (p : Nat) : Nat :=
  (2 + payloadLenSize m p + idLenSize m p + bodyLen m p) % 2 ^ 32

/-- `NDEF_MsgGetNextRec`; `none` stands for `NULL`. -/
def msgGetNextRec (m : Memory) (p : Nat) : Option Nat :=
  if isMessageEnd (m p) then none else some (recEnd m p)

/-! ## The fields of a record -/

/-- A field: a pointer, `none` for `NULL`, and a length. -/
structure RecField where
  pointer : Option Nat
  len : Nat
  deriving DecidableEq, Repr

/-- A field at an offset, or `NULL` if it is empty. -/
def fieldAt (offset len : Nat) : RecField :=
  { pointer := if len = 0 then none else some offset, len := len }

/-- `NDEF_RecGetType`, without `*p_tnf`. -/
def recGetType (m : Memory) (p : Nat) : RecField := fieldAt (headerEnd m p) (typeLen m p)

/-- `NDEF_RecGetId`. -/
def recGetId (m : Memory) (p : Nat) : RecField := fieldAt (headerEnd m p + typeLen m p) (idLen m p)

/-- `NDEF_RecGetPayload`. -/
def recGetPayload (m : Memory) (p : Nat) : RecField :=
  fieldAt (headerEnd m p + typeLen m p + idLen m p) (payloadLen m p)

end Nfc.Ndef
