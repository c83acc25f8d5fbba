import AlpsSystem.Lib.Memory
import AlpsSystem.Lib.Runs

/-!
# LE credit-based channels

`bt/stack/l2cap/l2c_fcr.cc`: an SDU is sent in PDUs, of which the first one announces its length,
and is put together again by the receiver.

* `procPdu` — the receiver, `segments` — the PDUs of a sender.
* `reassembly` — the receiver holds and passes up what was announced, if no PDU brings more than
  is missing, and takes what a sender sends.
-/

namespace L2cap

open Runs (EachStep Throughout throughout_of_inv)
open List
open LittleEndian (encode length_encode decode_encode)

/-- The bytes of an SDU that a buffer of `L2CAP_MAX_BUF_SIZE` has room for after its `BT_HDR`. -/
def maxSdu : Nat := 10240 + 24 - 8

/-- A received PDU: `p_buf->len`, and the memory from its first byte on. -/
structure Pdu where
  len : Nat
  memory : Memory

/-- An SDU that was passed up, with the length and the segments it was announced and came in. -/
structure Delivery where
  announced : Nat
  sdu : List UInt8
  segments : List (List UInt8)

/-- What `tL2C_CCB` has for the receiver. -/
structure Channel where
  mps : Nat
  mtu : Nat
  isFirstSeg : Bool := true
  /-- The bytes of `ble_sdu`. -/
  sdu : List UInt8 := []
  sduLength : Nat := 0
  /-- The payloads since the first segment. -/
  segments : List (List UInt8) := []
  delivered : List Delivery := []

/-- The second half of `l2c_lcc_proc_pdu`; the length of the SDU has 16 bits. -/
def store (c : Channel) (payload : List UInt8) : Channel :=
  let sdu := (c.sdu ++ payload).take ((c.sdu.length + payload.length) % 2 ^ 16)
  let segments := c.segments ++ [payload]
  if sdu.length = c.sduLength then
    { c with
      isFirstSeg := true, sdu := [], sduLength := 0, segments := []
      delivered := c.delivered ++ [⟨c.sduLength, sdu, segments⟩] }
  else if sdu.length < c.sduLength then
    { c with isFirstSeg := false, sdu := sdu, segments := segments }
  else { c with sdu := sdu, segments := segments }

/-- `l2c_lcc_proc_pdu`. -/
def procPdu (c : Channel) (p : Pdu) : Channel :=
  if p.len > c.mps then c
  else if c.isFirstSeg then
    let sduLength := p.memory.load 0 2
    if sduLength > c.mtu then c
    else
      store { c with sdu := [], sduLength := sduLength, segments := [] }
        (p.memory.slice 2 ((p.len + 2 ^ 16 - 2) % 2 ^ 16))
  else store c (p.memory.slice 0 p.len)

/-- The buffer at the front of `xmit_hold_q`; its event says that it is being sent. -/
structure Xmit where
  event : Bool := false
  data : List UInt8

/-- The bytes of the SDU that a PDU has room for. -/
def Xmit.room (maxPdu : Nat) (buf : Xmit) : Nat := if buf.event then maxPdu else maxPdu - 2

/-- What the first PDU starts with. -/
def Xmit.sduLen (buf : Xmit) : List UInt8 :=
  if buf.event then [] else encode 2 buf.data.length

/-- `l2c_lcc_get_next_xmit_sdu_seg`: the PDU after its L2CAP header, and what is left. -/
def getNextXmitSduSeg (maxPdu : Nat) (buf : Xmit) : List UInt8 × Option Xmit :=
  let room := buf.room maxPdu
  if buf.data.length ≤ room then (buf.sduLen ++ buf.data, none)
  else (buf.sduLen ++ buf.data.take room, some { event := true, data := buf.data.drop room })

/-- The PDUs of a buffer, if they are no more than so many. -/
def segments (maxPdu : Nat) : Nat → Xmit → Option (List (List UInt8))
  | 0, _ => none
  | count + 1, buf =>
    match getNextXmitSduSeg maxPdu buf with
    | (pdu, none) => some [pdu]
    | (pdu, some buf) => (segments maxPdu count buf).map (pdu :: ·)

def Pdu.ofList (l : List UInt8) : Pdu := ⟨l.length, Memory.ofList l⟩

/-- The PDU is discarded or brings no more than is missing. -/
def Fits (c : Channel) (p : Pdu) : Prop :=
  p.len > c.mps ∨ if c.isFirstSeg then
      p.memory.load 0 2 > c.mtu ∨ 2 ≤ p.len ∧ p.len - 2 ≤ p.memory.load 0 2
    else c.sdu.length + p.len ≤ c.sduLength

/-- The receiver holds no more than was announced, and has passed up what was. -/
structure Sound (c : Channel) : Prop where
  held : c.sdu.length ≤ c.sduLength ∧ c.sduLength ≤ c.mtu
  delivered : ∀ d ∈ c.delivered, d.sdu.length = d.announced ∧ d.sdu = d.segments.flatten

/-- The invariant. -/
structure Inv (c : Channel) : Prop extends Sound c where
  mtu : c.mtu ≤ maxSdu
  segments : c.sdu = c.segments.flatten

variable {c : Channel} {payload : List UInt8} {mps count : Nat} {buf : Xmit}
  {pdus : List (List UInt8)}

/-- A segment that brings no more than is missing. -/
lemma store_eq (h : c.sdu.length + payload.length ≤ c.sduLength) (hmax : c.sduLength ≤ maxSdu) :
    store c payload =
      if c.sdu.length + payload.length = c.sduLength then
        { c with
          isFirstSeg := true, sdu := [], sduLength := 0, segments := []
          delivered := c.delivered ++ [⟨c.sduLength, c.sdu ++ payload, c.segments ++ [payload]⟩] }
      else
        { c with
          isFirstSeg := false, sdu := c.sdu ++ payload, segments := c.segments ++ [payload] } := by
  have htake : (c.sdu ++ payload).take ((c.sdu.length + payload.length) % 2 ^ 16) =
      c.sdu ++ payload := by
    unfold maxSdu at hmax
    rw [Nat.mod_eq_of_lt (by omega), take_of_length_le (by simp)]
  unfold store
  dsimp only
  rw [htake, length_append]
  split
  · rfl
  · rw [if_pos (by omega)]

lemma Inv.store (h : Inv c) (hle : c.sdu.length + payload.length ≤ c.sduLength) :
    Inv (store c payload) := by
  have hflat : c.sdu ++ payload = (c.segments ++ [payload]).flatten := by simp [h.segments]
  rw [store_eq hle (h.held.2.trans h.mtu)]
  split
  · next heq =>
    refine ⟨⟨⟨zero_le, zero_le⟩, ?_⟩, h.mtu, rfl⟩
    intro d hd
    rcases mem_append.mp hd with hd | hd
    · exact h.delivered d hd
    · rw [mem_singleton.mp hd]
      exact ⟨length_append.trans heq, hflat⟩
  · exact ⟨⟨⟨length_append.trans_le hle, h.held.2⟩, h.delivered⟩, h.mtu, hflat⟩

open Memory

lemma Inv.procPdu (h : Inv c) {p : Pdu} (hfits : Fits c p) : Inv (procPdu c p) := by
  unfold L2cap.procPdu
  split
  · exact h
  next hmps =>
  have hfits := hfits.resolve_left hmps
  split
  · next hfirst =>
    rw [if_pos hfirst] at hfits
    dsimp only
    split
    · exact h
    next hmtu =>
    have hlen : (p.len + 2 ^ 16 - 2) % 2 ^ 16 ≤ p.memory.load 0 2 := by omega
    refine Inv.store ⟨⟨⟨zero_le, not_lt.mp hmtu⟩, h.delivered⟩, h.mtu, rfl⟩ ?_
    rwa [length_slice, length_nil, Nat.zero_add]
  · next hfirst =>
    rw [if_neg hfirst] at hfits
    exact h.store (by rwa [length_slice])

/-! ## From a sender to a receiver -/

/-- The SDU was passed up, after those of before. -/
def Delivers (c : Channel) (before : List Delivery) (sdu : List UInt8) : Prop :=
  c.isFirstSeg = true ∧ ∃ segments, c.delivered = before ++ [⟨sdu.length, sdu, segments⟩]

lemma exists_segments (hmps : 23 ≤ mps) (h : buf.data.length < count) :
    ∃ pdus, segments mps count buf = some pdus := by
  induction count generalizing buf with
  | zero => exact absurd h (Nat.not_lt_zero _)
  | succ count ih =>
    have hpos : 0 < buf.room mps := by unfold Xmit.room; split <;> omega
    unfold segments getNextXmitSduSeg
    by_cases hle : buf.data.length ≤ buf.room mps
    · exact ⟨_, by simp only [if_pos hle]; rfl⟩
    · have hlt : (buf.data.drop (buf.room mps)).length < count := by rw [length_drop]; omega
      obtain ⟨pdus, hpdus⟩ := @ih ⟨true, _⟩ hlt
      exact ⟨_, by simp only [if_neg hle, hpdus]; rfl⟩

open Pdu

lemma procPdu_first (hfirst : c.isFirstSeg) {n : Nat} (hn : n ≤ c.mtu)
    (hmtu : c.mtu ≤ maxSdu) (hlen : payload.length ≤ n) (hmps : payload.length + 2 ≤ c.mps) :
    procPdu c (ofList (encode 2 n ++ payload)) =
      store { c with sdu := [], sduLength := n, segments := [] } payload := by
  have hmax : n ≤ 10256 := hn.trans hmtu
  have hpdu := slice_ofList (encode 2 n ++ payload)
  have hslice := slice_ofList_append (encode 2 n) payload
  rw [length_encode] at hslice
  rw [length_append, length_encode] at hpdu
  have hload : (Memory.ofList (encode 2 n ++ payload)).load 0 2 = n := by
    rw [load, ← take_slice _ 0 (Nat.le_add_right 2 payload.length), hpdu,
      take_left' (by simp), decode_encode (by omega)]
  have hmod : (2 + payload.length + 2 ^ 16 - 2) % 2 ^ 16 = payload.length := by omega
  unfold procPdu Pdu.ofList
  dsimp only
  rw [length_append, length_encode, if_neg (by omega), if_pos hfirst, hload,
    if_neg (by omega), hmod, hslice]

lemma procPdu_next (hfirst : c.isFirstSeg = false) (hmps : payload.length ≤ c.mps) :
    procPdu c (ofList payload) = store c payload := by
  unfold procPdu Pdu.ofList
  rw [if_neg (by simpa using hmps), if_neg (by simp [hfirst]), slice_ofList]

/-- The rest of an SDU arrives at a receiver that stores the next segment in `c'`. -/
lemma segments_received (c' : Channel) (h : segments mps count buf = some pdus)
    (hnext : ∀ l : List UInt8, l.length ≤ buf.room mps → l.length ≤ buf.data.length →
      procPdu c (ofList (buf.sduLen ++ l)) = store c' l)
    (hlen : c'.sdu.length + buf.data.length = c'.sduLength) (hmax : c'.sduLength ≤ maxSdu)
    (hmps : mps ≤ c'.mps) :
    Delivers ((pdus.map Pdu.ofList).foldl procPdu c) c'.delivered (c'.sdu ++ buf.data) := by
  induction count generalizing c c' buf pdus with
  | zero => cases h
  | succ count ih =>
    unfold segments getNextXmitSduSeg at h
    by_cases hle : buf.data.length ≤ buf.room mps
    · simp only [if_pos hle, Option.some.injEq] at h
      subst h
      rw [map_singleton, foldl_cons, foldl_nil, hnext _ hle le_rfl, store_eq hlen.le hmax,
        if_pos hlen]
      exact ⟨rfl, _, by rw [length_append, hlen]⟩
    · simp only [if_neg hle, Option.map_eq_some_iff] at h
      obtain ⟨rest, hrest, rfl⟩ := h
      have hdata := take_append_drop (buf.room mps) buf.data
      have htake : (buf.data.take (buf.room mps)).length = buf.room mps :=
        length_take_of_le (by omega)
      generalize buf.data.take (buf.room mps) = l at *
      rw [map_cons, foldl_cons, hnext l htake.le (by omega), store_eq (by omega) hmax,
        if_neg (by omega), ← hdata, ← append_assoc]
      refine ih { c' with isFirstSeg := false, sdu := c'.sdu ++ l, segments := c'.segments ++ [l] }
        hrest (fun l hl _ => procPdu_next rfl (hl.trans hmps)) ?_ hmax hmps
      dsimp only
      rw [length_append, length_drop]
      omega

/-- With a buffer for its MTU, the receiver holds and passes up what was announced as long as no
PDU brings more than is missing, and passes up the SDU of a sender's PDUs. -/
theorem reassembly (mps : Nat) :
    (∀ mtu ≤ maxSdu, ∀ pdus, EachStep Fits procPdu { mps := mps, mtu := mtu } pdus →
      Throughout Sound procPdu { mps := mps, mtu := mtu } pdus) ∧
    (23 ≤ mps → ∀ sdu, ∃ count pdus, segments mps count { data := sdu } = some pdus ∧
      ∀ c : Channel, c.isFirstSeg → mps ≤ c.mps → sdu.length ≤ c.mtu → c.mtu ≤ maxSdu →
        Delivers ((pdus.map Pdu.ofList).foldl procPdu c) c.delivered sdu) := by
  constructor
  · intro mtu hmtu pdus hfits
    have hinv : Inv { mps := mps, mtu := mtu } :=
      ⟨⟨⟨zero_le, zero_le⟩, by simp⟩, hmtu, rfl⟩
    exact (throughout_of_inv (I := Inv) (fun c p h => h.procPdu) pdus _ hinv hfits).mono
      fun c h => h.toSound
  · intro hmps sdu
    obtain ⟨pdus, h⟩ := @exists_segments mps _ { data := sdu } hmps (Nat.lt_succ_self _)
    refine ⟨_, pdus, h, fun c hfirst hle hmtu hmax => ?_⟩
    refine segments_received _ h (fun l hroom hl => procPdu_first hfirst hmtu hmax hl ?_)
      (Nat.zero_add _) (hmtu.trans hmax) hle
    have hroom : l.length ≤ mps - 2 := hroom
    omega

/-- Three bytes are announced, of which one comes at once and two in a second PDU. -/
theorem reassembly_two_segments :
    let pdus := [Pdu.ofList [3, 0, 7], Pdu.ofList [8, 9]]
    Throughout Sound procPdu { mps := 23, mtu := 100 } pdus ∧
      (pdus.foldl procPdu { mps := 23, mtu := 100 }).delivered.map (·.sdu) = [[7, 8, 9]] :=
  ⟨(reassembly 23).1 100 (by decide) _ (by unfold Fits; decide), by decide⟩

/-- One byte is announced and five come. -/
theorem overfull :
    ¬ Throughout Sound procPdu { mps := 23, mtu := 100 } [Pdu.ofList [1, 0, 7, 7, 7, 7, 7]] :=
  fun h => absurd h.last.held.1 (by decide)

end L2cap
