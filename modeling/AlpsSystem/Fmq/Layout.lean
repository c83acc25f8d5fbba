import AlpsSystem.Fmq.MessageQueue

/-!
# The shared memory of a queue

The constructor of `MessageQueue` allocates one region of shared memory, and that of `MQDescriptor`
divides it: the two counters, the data and the event flag word.

* `regions_iff` — the division is right exactly if no sum of sizes wraps around and the offset of
  the event flag word fits its 32 bits.
-/

namespace Fmq

structure GrantorDescriptor where
  offset : Nat
  extent : Nat
  deriving DecidableEq, Repr

/-- `alignToWordBoundary`; `none` when it aborts. -/
def alignToWordBoundary (length : Nat) : Option Nat :=
  if wordSize - 1 - 8 + 1 < length then none else some ((length + 7) / 8 * 8)

/-- The loop of the constructor of `MQDescriptor`, over the sizes of the regions. -/
def grantorsFrom : (offset : Nat) → (memSize : List Nat) → Option (List GrantorDescriptor)
  | _, [] => some []
  | offset, size :: rest => do
    let aligned ← alignToWordBoundary offset
    let grantors ← grantorsFrom (addWord offset size) rest
    -- the field is of 32 bits
    return { offset := aligned % 2 ^ 32, extent := size } :: grantors

/-- The sizes of the counters, the data and, if it is configured, the event flag word. -/
def memSize (bufferSize : Nat) (configureEventFlag : Bool) : List Nat :=
  [8, 8, bufferSize] ++ if configureEventFlag then [4] else []

def pageSize : Nat := 4096

/-- The constructor of `MessageQueue`: the size of the shared memory, and its regions. -/
def messageQueue (numElementsInQueue messageSize : Nat) (configureEventFlagWord : Bool) :
    Option (Nat × List GrantorDescriptor) :=
  if (wordSize - 1) / messageSize < numElementsInQueue then none
  else do
    let queueSizeBytes := mulWord numElementsInQueue messageSize
    let metaDataSize := 2 * 8 + if configureEventFlagWord then 4 else 0
    let aligned ← alignToWordBoundary queueSizeBytes
    let ashmemSize := addWord (addWord aligned metaDataSize) (pageSize - 1)
    let grantors ← grantorsFrom 0 (memSize queueSizeBytes configureEventFlagWord)
    return (ashmemSize / pageSize * pageSize, grantors)

/-- The regions have their sizes, are apart and aligned, and lie inside the shared memory. -/
@[mk_iff] structure Layout (bufferSize : Nat) (configureEventFlag : Bool) (size : Nat)
    (grantors : List GrantorDescriptor) : Prop where
  extents : grantors.map (·.extent) = memSize bufferSize configureEventFlag
  apart : grantors.Pairwise fun g h => g.offset + g.extent ≤ h.offset ∨
    h.offset + h.extent ≤ g.offset
  aligned : ∀ g ∈ grantors, 8 ∣ g.offset
  inside : ∀ g ∈ grantors, g.offset + g.extent ≤ size
  pages : pageSize ∣ size

/-- **When the shared memory is divided as it should be.** -/
theorem regions_iff (numElements messageSize : Nat) (eventFlag : Bool) (size : Nat)
    (grantors : List GrantorDescriptor)
    (hbuilt : messageQueue numElements messageSize eventFlag = some (size, grantors)) :
    Layout (numElements * messageSize) eventFlag size grantors ↔
      (numElements * messageSize + 7) / 8 * 8 + (if eventFlag then 20 else 16) + 4095 < wordSize ∧
        (eventFlag = true → (numElements * messageSize + 7) / 8 * 8 + 16 < 2 ^ 32) := by
  unfold messageQueue at hbuilt
  split at hbuilt
  · cases hbuilt
  rename_i hcount
  have hle := Nat.mul_le_of_le_div _ _ _ (Nat.not_lt.mp hcount)
  rw [mulWord, Nat.mod_eq_of_lt (by unfold wordSize at *; omega)] at hbuilt
  generalize numElements * messageSize = q at *
  obtain ⟨aligned, haligned, hbuilt⟩ := Option.bind_eq_some_iff.mp hbuilt
  obtain rfl : (q + 7) / 8 * 8 = aligned := by
    unfold alignToWordBoundary at haligned
    split at haligned
    · cases haligned
    · exact Option.some.inj haligned
  cases eventFlag with
  | false =>
    simp [grantorsFrom, memSize, addWord, wordSize] at hbuilt hle ⊢
    obtain ⟨rfl, rfl⟩ := hbuilt
    simp [layout_iff, memSize, pageSize]
    omega
  | true =>
    simp [grantorsFrom, memSize, alignToWordBoundary, addWord, wordSize,
      Option.bind_eq_some_iff] at hbuilt hle ⊢
    obtain ⟨⟨-, rfl⟩, rfl⟩ := hbuilt
    simp [layout_iff, memSize, pageSize]
    omega

theorem regions_iff_three : ∃ size grantors,
    messageQueue 3 5 true = some (size, grantors) ∧ Layout (3 * 5) true size grantors :=
  ⟨_, _, rfl, (regions_iff 3 5 true _ _ rfl).mpr (by decide)⟩

/-- With 2^32 bytes of data the offset of the event flag word, cut to 32 bits, is that of the data.
-/
theorem flag_in_data :
    messageQueue (2 ^ 32) 1 true =
        some (2 ^ 32 + 4096, [⟨0, 8⟩, ⟨8, 8⟩, ⟨16, 2 ^ 32⟩, ⟨16, 4⟩]) ∧
      ¬ Layout (2 ^ 32 * 1) true (2 ^ 32 + 4096) [⟨0, 8⟩, ⟨8, 8⟩, ⟨16, 2 ^ 32⟩, ⟨16, 4⟩] :=
  ⟨by decide, fun h => absurd h.apart (by decide)⟩

end Fmq
