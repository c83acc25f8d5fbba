import AlpsSystem.Fmq.MessageQueue

/-!
# Transactions of the fast message queue

A transaction is built from a counter that has lost its high bits, split where the
ring ends, and copied in two pieces.  Seen from the message stream it is simply the
slots of the positions it covers.

* `bounded_iff` — where the bounds checks of a transaction hold.
-/

namespace Fmq

open List

variable {T : Type} {d : Descriptor} {ptr pos n startIdx m k : Nat} {tx : MemTransaction}

/-- The ring as an array of messages. -/
def slots (d : Descriptor) (ring : Nat → T) (k : Nat) : T := ring (k * d.quantum)

/-- The queue size in bytes is the slot count times the message size. -/
lemma Descriptor.count_mul (d : Descriptor) : d.getQuantumCount * d.quantum = d.size :=
  Nat.div_mul_cancel d.quantum_dvd

lemma Descriptor.count_pos (d : Descriptor) : 0 < d.getQuantumCount :=
  Nat.div_pos (Nat.le_of_dvd d.size_pos d.quantum_dvd) d.quantum_pos

lemma Descriptor.count_lt (d : Descriptor) : d.getQuantumCount < wordSize :=
  Nat.lt_of_le_of_lt (Nat.div_le_self _ _) d.size_lt

/-- Messages that fit the ring are copied whole. -/
lemma Descriptor.copied_eq (d : Descriptor) (h : n ≤ d.getQuantumCount) : d.copied n = n := by
  have hbytes : n * d.quantum < wordSize :=
    (Nat.mul_le_mul_right _ h).trans_lt (d.count_mul ▸ d.size_lt)
  rw [copied, mulWord, Nat.mod_eq_of_lt hbytes, Nat.mul_div_cancel _ d.quantum_pos]

/-- `ptr` is the counter of stream position `pos`, and cutting it to a word keeps the
ring offset. -/
structure Tracks (d : Descriptor) (ptr pos : Nat) : Prop where
  eq : ptr = pos * d.quantum % wordSize
  offset : pos * d.quantum < wordSize ∨ d.size ∣ wordSize

open Nat (mod_eq_of_lt)

/-- The ring offset of a counter is the offset of the slot of its position. -/
lemma Tracks.mod (h : Tracks d ptr pos) : ptr % d.size = pos % d.getQuantumCount * d.quantum := by
  have hmod : pos * d.quantum % wordSize % d.size = pos * d.quantum % d.size := by
    rcases h.offset with hlt | hdvd
    · rw [mod_eq_of_lt hlt]
    · exact Nat.mod_mod_of_dvd _ hdvd
  rw [h.eq, hmod]
  conv_lhs => rw [← d.count_mul]
  exact Nat.mul_mod_mul_right _ _ _

/-- The messages from a slot to the end of the ring. -/
lemma contiguous_eq (d : Descriptor) :
    (d.size - k * d.quantum) / d.quantum = d.getQuantumCount - k := by
  rw [← d.count_mul, ← Nat.sub_mul, Nat.mul_div_cancel _ d.quantum_pos]

/-! ## The slots of a transaction -/

/-- The byte offset of slot `k`. -/
def MemTransaction.slotOffset (d : Descriptor) (tx : MemTransaction) (k : Nat) : Nat :=
  if k < tx.first.length then tx.first.address.getD 0 + k * d.quantum
  else tx.second.address.getD 0 + (k - tx.first.length) * d.quantum

/-- The byte offsets of `count` slots from slot `startIdx` on. -/
def MemTransaction.offsets (d : Descriptor) (tx : MemTransaction) (startIdx count : Nat) :
    List Nat :=
  (List.range count).map fun j => tx.slotOffset d (startIdx + j)

/-- The regions of `tx` have room for `n` messages, and the first one lies in the ring. -/
structure MemTransaction.Describes (d : Descriptor) (tx : MemTransaction) (n : Nat) : Prop where
  length : tx.first.length + tx.second.length = n
  lt : n < wordSize
  first : tx.first.address.isSome
  second : tx.second.length ≠ 0 → tx.second.address = some 0
  inside : tx.first.address.getD 0 + tx.first.length * d.quantum ≤ d.size

lemma transaction_describes (d : Descriptor) (ptr : Nat) (hn : n < wordSize) :
    (transaction d ptr n).Describes d n := by
  have hoffset := Nat.mod_lt ptr d.size_pos
  have hroom := Nat.div_mul_le_self (d.size - ptr % d.size) d.quantum
  unfold transaction
  dsimp only
  split
  · rename_i hwrap
    exact ⟨Nat.add_sub_cancel' hwrap.le, hn, rfl, fun _ => rfl, by dsimp only [Option.getD]; omega⟩
  · rename_i hfits
    have hbytes := Nat.mul_le_mul_right d.quantum (not_lt.mp hfits)
    exact ⟨rfl, hn, rfl, fun h => absurd rfl h, by dsimp only [Option.getD]; omega⟩

/-- The first region is no longer than the ring. -/
lemma MemTransaction.Describes.first_le (h : tx.Describes d n) :
    tx.first.length ≤ d.getQuantumCount := by
  have hinside := h.inside
  rw [← d.count_mul] at hinside
  exact Nat.le_of_mul_le_mul_right (by omega) d.quantum_pos

/-- Where the slots of a transaction lie in the ring: behind the first region, only as many as the
ring has. -/
lemma MemTransaction.Describes.slot_inside_iff (h : tx.Describes d n) (hk : k < n) :
    tx.slotOffset d k + d.quantum ≤ d.size ↔ k < tx.first.length + d.getQuantumCount := by
  have hinside := h.inside
  rw [slotOffset]
  split
  · rename_i hlow
    have hbytes := Nat.mul_le_mul_right d.quantum (Nat.succ_le_of_lt hlow)
    rw [Nat.succ_mul] at hbytes
    exact iff_of_true (by omega) (by omega)
  · rename_i hhigh
    have hlength := h.length
    rw [h.second (by omega), Option.getD_some, zero_add, ← Nat.succ_mul, ← d.count_mul,
      Nat.mul_le_mul_right_iff d.quantum_pos]
    omega

open MemTransaction

open Option (getD_some isSome_iff_exists map_some map_none)

open Ring

/-- The slots of a transaction are those of the positions it covers. -/
lemma slotOffset_transaction {j : Nat} (h : Tracks d ptr pos)
    (hn : n ≤ d.getQuantumCount) (hj : j < n) :
    (transaction d ptr n).slotOffset d j = (pos + j) % d.getQuantumCount * d.quantum := by
  rw [add_mod_eq d.count_pos (by omega), transaction]
  simp only [h.mod, contiguous_eq, slotOffset]
  split
  · split <;> simp [add_mul]
  · simp only [getD_some]
    rw [if_pos (by omega), add_mul]

/-! ## Copies -/

/-- The byte offsets of `count` messages from a base offset on. -/
def straight (d : Descriptor) : Option Nat → Nat → List Nat
  | some base, count => (List.range count).map fun j => base + j * d.quantum
  | none, _ => []

/-- Store messages one after the other. -/
def store (ring : Nat → T) (data : List (Nat × T)) : Nat → T :=
  data.foldl (fun ring p => Function.update ring p.1 p.2) ring

lemma readMessages_eq (ring : Nat → T) (base : Option Nat) {count : Nat}
    (h : count ≤ d.getQuantumCount) :
    readMessages d ring base count = (straight d base count).map ring := by
  cases base <;> simp [readMessages, straight, d.copied_eq h]

open Function

lemma writeMessages_eq (data : List T) : ∀ (ring : Nat → T) (base : Option Nat),
    writeMessages d ring base data = store ring ((straight d base data.length).zip data) := by
  induction data with
  | nil => intro ring base; cases base <;> rfl
  | cons x xs ih =>
    intro ring base
    cases base with
    | none => rfl
    | some base =>
      have hstep : (fun j => base + (j + 1) * d.quantum) =
          fun j => base + d.quantum + j * d.quantum := by
        funext j
        rw [Nat.succ_mul]
        omega
      rw [writeMessages, ih]
      simp [straight, range_succ_eq_map, store, comp_def, hstep]

/-- **The pieces of a copy are the slots asked for.** -/
theorem getMemRegionInfo_eq (h : tx.Describes d n) (hfit : startIdx + m ≤ n) :
    ∃ info, getMemRegionInfo d tx startIdx m = some info ∧ info.firstCount ≤ m ∧
      info.firstCount ≤ tx.first.length ∧
      info.secondCount ≤ startIdx + m - tx.first.length ∧
      straight d info.firstBaseAddress info.firstCount =
        tx.offsets d startIdx info.firstCount ∧
      straight d info.secondBaseAddress (m - info.firstCount) =
        tx.offsets d (startIdx + info.firstCount) (m - info.firstCount) ∧
      info.secondCount = m - info.firstCount := by
  obtain ⟨first, hfirst⟩ := isSome_iff_exists.mp h.first
  have hlength := h.length
  have hlt := h.lt
  rw [getMemRegionInfo, if_neg (by unfold addWord; rw [mod_eq_of_lt, mod_eq_of_lt] <;> omega)]
  refine ⟨_, rfl, by dsimp only; split <;> omega, by dsimp only; split <;> omega,
    by dsimp only; split <;> omega, ?_, ?_, rfl⟩
  · by_cases hlow : startIdx < tx.first.length
    · rw [if_pos hlow]
      generalize hk : min m (tx.first.length - startIdx) = k
      by_cases hzero : k = 0
      · simp [hzero, straight, offsets]
      · simp only [hfirst, ne_eq, hzero]
        refine map_congr_left fun j hj => ?_
        have := mem_range.mp hj
        rw [slotOffset, if_pos (by omega), hfirst, getD_some, add_mul, add_assoc]
    · simp [hlow, straight, offsets]
  · generalize hk :
      (if startIdx < tx.first.length then min m (tx.first.length - startIdx) else 0) = k
    by_cases hzero : m - k = 0
    · simp [hzero, straight, offsets]
    · have hpast : tx.first.length ≤ startIdx + k := by split at hk <;> omega
      have hstart : (if tx.first.length < startIdx then startIdx - tx.first.length else 0) =
          startIdx + k - tx.first.length := by
        split at hk <;> split <;> omega
      have hsecond := h.second (by omega)
      simp only [hsecond, hstart, ne_eq, hzero]
      refine map_congr_left fun j hj => ?_
      rw [slotOffset, if_neg (by omega), hsecond, getD_some,
        Nat.sub_add_comm hpast, add_mul, add_assoc]

lemma offsets_append (tx : MemTransaction) (startIdx : Nat) (h : k ≤ m) :
    tx.offsets d startIdx k ++ tx.offsets d (startIdx + k) (m - k) = tx.offsets d startIdx m := by
  obtain ⟨l, rfl⟩ := Nat.exists_eq_add_of_le h
  simp [offsets, range_add, add_assoc]

/-- **A copy out of a transaction fetches its slots in order**, if they lie in the ring. -/
theorem copyFrom_eq (ring : Nat → T) (h : tx.Describes d n) (hfit : startIdx + m ≤ n)
    (hinside : m = 0 ∨ startIdx + m ≤ tx.first.length + d.getQuantumCount) :
    copyFrom d ring tx startIdx m = some ((tx.offsets d startIdx m).map ring) := by
  obtain ⟨info, hinfo, hle, hfirstLe, hsecondLe, hfirst, hsecond, hcount⟩ :=
    getMemRegionInfo_eq h hfit
  rw [copyFrom, hinfo, map_some, readMessages_eq ring _ (hfirstLe.trans h.first_le),
    readMessages_eq ring _ (by omega), hcount, hfirst, hsecond,
    ← map_append, offsets_append tx startIdx hle]

/-- **A copy into a transaction stores its slots in order**, if they lie in the ring. -/
theorem copyTo_eq (ring : Nat → T) (data : List T)
    (h : tx.Describes d n) (hfit : startIdx + data.length ≤ n)
    (hinside : data.length = 0 ∨ startIdx + data.length ≤ tx.first.length + d.getQuantumCount) :
    copyTo d ring tx data startIdx =
      some (store ring ((tx.offsets d startIdx data.length).zip data)) := by
  obtain ⟨info, hinfo, hle, hfirstLe, hsecondLe, hfirst, hsecond, hcount⟩ :=
    getMemRegionInfo_eq (d := d) h hfit
  have htake : (data.take info.firstCount).length = info.firstCount := by
    rw [length_take, min_eq_left hle]
  have hrest : (data.drop info.firstCount).take info.secondCount = data.drop info.firstCount :=
    take_of_length_le (by rw [length_drop, hcount])
  have hlength : (tx.offsets d startIdx info.firstCount).length = info.firstCount := by
    simp [offsets]
  rw [copyTo, hinfo, Option.map_some, d.copied_eq (hfirstLe.trans h.first_le),
    d.copied_eq (by omega), hrest, writeMessages_eq, writeMessages_eq, htake, length_drop,
    hfirst, hsecond, ← offsets_append tx startIdx hle]
  generalize tx.offsets d (startIdx + info.firstCount) _ = rest
  conv_rhs => rw [← take_append_drop info.firstCount data]
  rw [zip_append (hlength.trans htake.symm), store, store, store, foldl_append]

/-- The batch at a stream position is what a copy of its transaction fetches. -/
lemma copyFrom_transaction (ring : Nat → T) (h : Tracks d ptr pos) (hn : n ≤ d.getQuantumCount) :
    copyFrom d ring (transaction d ptr n) 0 n =
      some (get (slots d ring) d.getQuantumCount pos n) := by
  rw [copyFrom_eq ring (transaction_describes d ptr (hn.trans_lt d.count_lt)) (by omega) (by omega),
    offsets, map_map]
  congr 1
  refine map_congr_left fun j hj => ?_
  rw [comp_apply, zero_add, slotOffset_transaction h hn (mem_range.mp hj)]
  rfl

/-- Stores at the slots of consecutive positions are a store in the ring of messages. -/
lemma slots_store (data : List T) : ∀ (ring : Nat → T) (pos : Nat),
    slots d (store ring (((List.range data.length).map fun j =>
      (pos + j) % d.getQuantumCount * d.quantum).zip data)) =
      put (slots d ring) d.getQuantumCount pos data := by
  induction data with
  | nil => intro ring pos; rfl
  | cons x xs ih =>
    intro ring pos
    have hslot : slots d (Function.update ring (pos % d.getQuantumCount * d.quantum) x) =
        Function.update (slots d ring) (pos % d.getQuantumCount) x := by
      funext j
      unfold slots
      by_cases hj : j = pos % d.getQuantumCount
      · simp [hj]
      · rw [update_of_ne hj, update_of_ne]
        exact fun h => hj (Nat.eq_of_mul_eq_mul_right d.quantum_pos h)
    rw [put, ← hslot, ← ih]
    simp [range_succ_eq_map, store, comp_def, add_comm, add_left_comm]

/-- The batch at a stream position is what a copy into its transaction stores. -/
lemma copyTo_transaction (ring : Nat → T) (data : List T) (h : Tracks d ptr pos)
    (hn : data.length ≤ d.getQuantumCount) :
    ∃ ring', copyTo d ring (transaction d ptr data.length) data 0 = some ring' ∧
      ∀ i < d.getQuantumCount,
        slots d ring' i = put (slots d ring) d.getQuantumCount pos data i := by
  refine ⟨_, copyTo_eq ring data
    (transaction_describes d ptr (hn.trans_lt d.count_lt)) (by omega) (by omega), fun i _ => ?_⟩
  rw [← slots_store]
  congr 3
  refine map_congr_left fun j hj => ?_
  rw [zero_add, slotOffset_transaction h hn (mem_range.mp hj)]

/-! ## Counters -/

/-- The difference of two counters is the distance of their positions, as long as that
is a word. -/
lemma subWord_tracks {w r pos' : Nat} (hw : w = pos' * d.quantum % wordSize)
    (hr : r = pos * d.quantum % wordSize) (hle : pos ≤ pos')
    (hlag : (pos' - pos) * d.quantum < wordSize) : subWord w r = (pos' - pos) * d.quantum := by
  have hsplit : pos' * d.quantum = pos * d.quantum + (pos' - pos) * d.quantum := by
    rw [← add_mul, Nat.add_sub_cancel' hle]
  have hrlt : pos * d.quantum % wordSize < wordSize := Nat.mod_lt _ (by decide)
  unfold subWord
  rw [hw, hr, hsplit, Nat.add_mod, mod_eq_of_lt hlag]
  generalize pos * d.quantum % wordSize = a at *
  generalize (pos' - pos) * d.quantum = b at *
  rcases lt_or_ge (a + b) wordSize with h | h
  · rw [mod_eq_of_lt h, show a + b + wordSize - a = b + wordSize by omega, Nat.add_mod_right,
      mod_eq_of_lt hlag]
  · rw [show a + b = a + b - wordSize + wordSize by omega, Nat.add_mod_right,
      mod_eq_of_lt (show a + b - wordSize < wordSize by omega),
      show a + b - wordSize + wordSize - a = b by omega, mod_eq_of_lt hlag]

/-- Advancing a counter advances its position. -/
lemma addWord_tracks (h : ptr = pos * d.quantum % wordSize) :
    addWord ptr (mulWord n d.quantum) = (pos + n) * d.quantum % wordSize := by
  unfold addWord mulWord
  rw [h, ← Nat.add_mod, add_mul]

/-! ## Bounds -/

/-- What a transaction of `n` messages should do: give its slots and no others, and copy exactly
the slots asked for if it has them all; and the slots lie in the ring. -/
structure Bounded (d : Descriptor) (ring : Nat → T) (tx : MemTransaction) (n idx startIdx : Nat)
    (data : List T) : Prop where
  slot : getSlot d tx idx = if idx < n then some (tx.slotOffset d idx) else none
  slotInside : idx < n → tx.slotOffset d idx + d.quantum ≤ d.size
  read : copyFrom d ring tx startIdx data.length = if startIdx + data.length ≤ n then
    some ((tx.offsets d startIdx data.length).map ring) else none
  write : copyTo d ring tx data startIdx = if startIdx + data.length ≤ n then
    some (store ring ((tx.offsets d startIdx data.length).zip data)) else none
  copyInside : startIdx + data.length ≤ n →
    ∀ offset ∈ tx.offsets d startIdx data.length, offset + d.quantum ≤ d.size

lemma getSlot_iff (h : tx.Describes d n) (idx : Nat) :
    getSlot d tx idx = (if idx < n then some (tx.slotOffset d idx) else none) ↔
      (idx = n → tx.second.address = none) := by
  obtain ⟨first, hfirst⟩ := isSome_iff_exists.mp h.first
  have hlength := h.length
  rw [getSlot, addWord, hlength, mod_eq_of_lt h.lt]
  rcases Nat.lt_trichotomy idx n with hlt | rfl | hgt
  · rw [if_neg (by omega), slotOffset]
    refine iff_of_true ?_ fun heq => absurd heq (by omega)
    split
    · rw [hfirst, map_some, getD_some]
    · rw [h.second (by omega), map_some, getD_some]
  · rw [if_neg (lt_irrefl _), if_neg (by omega), if_neg (lt_irrefl _), Option.map_eq_none_iff]
    exact ⟨fun hnone _ => hnone, fun hnone => hnone rfl⟩
  · rw [if_pos hgt, if_neg (by omega)]
    exact iff_of_true rfl fun heq => absurd heq (by omega)

lemma getMemRegionInfo_eq_none_iff (h : tx.Describes d n) :
    getMemRegionInfo d tx startIdx m = none ↔ n < addWord startIdx m := by
  have hlength : addWord tx.first.length tx.second.length = n := by
    rw [addWord, h.length, mod_eq_of_lt h.lt]
  rw [getMemRegionInfo, hlength]
  split <;> simp_all

/-- The last slot of a copy is the first to leave the ring. -/
lemma offsets_inside_iff (h : tx.Describes d n) (hfit : startIdx + m ≤ n) :
    (∀ offset ∈ tx.offsets d startIdx m, offset + d.quantum ≤ d.size) ↔
      m = 0 ∨ startIdx + m ≤ tx.first.length + d.getQuantumCount := by
  simp only [offsets, forall_mem_map, mem_range]
  constructor
  · intro hall
    refine or_iff_not_imp_left.mpr fun hm => ?_
    have := (h.slot_inside_iff (by omega)).mp (hall (m - 1) (by omega))
    omega
  · rintro (rfl | hle) j hj
    · exact absurd hj (by omega)
    · exact (h.slot_inside_iff (by omega)).mpr (by omega)

/-- **Where the checks of a transaction hold**: everywhere but at the slot after the last one if the
ring wraps there, for a copy whose end wraps around to a slot of the transaction, and where a
transaction that was begun with a count whose bytes wrap around has left the ring. -/
theorem bounded_iff (d : Descriptor) (flavor : MQFlavor) (w r : Nat) (n idx startIdx : UInt64)
    (ring : Nat → T) (data : List T) (tx : MemTransaction)
    (hbegin : beginWrite d flavor w r n.toNat = some tx ∨ (beginRead d w r n.toNat).1 = some tx) :
    Bounded d ring tx n.toNat idx.toNat startIdx.toNat data ↔
      (idx = n → tx.second.address = none) ∧
      (idx < n → idx.toNat < tx.first.length + d.getQuantumCount) ∧
      (startIdx.toNat + data.length < wordSize ∨ n.toNat < addWord startIdx.toNat data.length) ∧
      (startIdx.toNat + data.length ≤ n.toNat →
        data = [] ∨ startIdx.toNat + data.length ≤ tx.first.length + d.getQuantumCount) := by
  have hn : n.toNat < wordSize := n.toNat_lt
  obtain ⟨ptr, rfl⟩ : ∃ ptr, tx = transaction d ptr n.toNat := by
    unfold beginWrite beginRead at hbegin
    rcases hbegin with hbegin | hbegin
    · exact ⟨w, by split at hbegin <;> simp_all⟩
    · exact ⟨r, by split at hbegin <;> (try split at hbegin) <;> simp_all⟩
  have h := transaction_describes d ptr hn
  have hslot := getSlot_iff h idx.toNat
  rw [UInt64.toNat_inj] at hslot
  rw [UInt64.lt_iff_toNat_lt, ← length_eq_zero_iff]
  constructor
  · intro hb
    refine ⟨hslot.mp hb.slot, fun hidx => (h.slot_inside_iff hidx).mp (hb.slotInside hidx), ?_,
      fun hfit => (offsets_inside_iff h hfit).mp (hb.copyInside hfit)⟩
    by_cases hfit : startIdx.toNat + data.length ≤ n.toNat
    · exact .inl (hfit.trans_lt hn)
    · have hread := hb.read
      rw [if_neg hfit, copyFrom, Option.map_eq_none_iff] at hread
      exact .inr ((getMemRegionInfo_eq_none_iff h).mp hread)
  · rintro ⟨hlast, hidx, hsum, hinside⟩
    by_cases hfit : startIdx.toNat + data.length ≤ n.toNat
    · exact ⟨hslot.mpr hlast, fun hlt => (h.slot_inside_iff hlt).mpr (hidx hlt),
        by rw [if_pos hfit, copyFrom_eq ring h hfit (hinside hfit)],
        by rw [if_pos hfit, copyTo_eq ring data h hfit (hinside hfit)],
        fun _ => (offsets_inside_iff h hfit).mpr (hinside hfit)⟩
    · have hpast : n.toNat < addWord startIdx.toNat data.length := by
        refine hsum.elim (fun hlt => ?_) id
        rw [addWord, mod_eq_of_lt hlt]
        omega
      have hnone := (getMemRegionInfo_eq_none_iff h).mpr hpast
      exact ⟨hslot.mpr hlast, fun hlt => (h.slot_inside_iff hlt).mpr (hidx hlt),
        by rw [if_neg hfit, copyFrom, hnone, map_none],
        by rw [if_neg hfit, copyTo, hnone, map_none], fun hle => absurd hle hfit⟩

/-- A ring of two one-byte messages. -/
def sampleDescriptor : Descriptor where
  quantum := 1
  size := 2
  quantum_pos := by decide
  size_pos := by decide
  quantum_dvd := by decide
  size_lt := by decide

theorem bounded_iff_sample :
    Bounded sampleDescriptor (fun _ => 0) (transaction sampleDescriptor 1 2) 2 1 1 [7] :=
  (bounded_iff sampleDescriptor .kUnsynchronizedWrite 1 0 2 1 1 (fun _ => 0) [7] _ (.inl rfl)).mpr
    ⟨by decide, by decide, .inl (by decide), by decide⟩

/-- A ring of one two-byte message. -/
def wideDescriptor : Descriptor where
  quantum := 2
  size := 2
  quantum_pos := by decide
  size_pos := by decide
  quantum_dvd := by decide
  size_lt := by decide

/-- Over the end of the ring, slot 2 of two messages is the byte of slot 0; and a copy of one
message that starts at the last index passes the check.  A count of messages whose bytes wrap around
to those of one message can be read from a ring that has one: slot 2 is then past the ring, and a
copy of all of them delivers one. -/
theorem slots_past_end : (∃ tx, beginWrite sampleDescriptor .kUnsynchronizedWrite 1 0 2 = some tx ∧
      getSlot sampleDescriptor tx 2 = some 1 ∧
      (copyFrom sampleDescriptor (fun _ => 0) tx (2 ^ 64 - 1) 1).isSome ∧
      (copyTo sampleDescriptor (fun _ => 0) tx [7] (2 ^ 64 - 1)).isSome) ∧
    ∃ tx, (beginRead wideDescriptor 2 0 (2 ^ 63 + 1)).1 = some tx ∧
      getSlot wideDescriptor tx 2 = some wideDescriptor.size ∧
      copyFrom wideDescriptor (fun _ => 0) tx 0 (2 ^ 63 + 1) = some [0] :=
  ⟨⟨_, rfl, by decide, by decide, by decide⟩, _, rfl, by decide, by decide⟩

end Fmq
