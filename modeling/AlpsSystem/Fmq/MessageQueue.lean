import AlpsSystem.Lib.Ring
import AlpsSystem.Lib.Runs

/-!
# The fast message queue

The lock-free queue of `libfmq/include/fmq/MessageQueue.h`: two free-running byte
counters over a ring of messages, and transactions that describe the part of the
ring a read or write works on.  Counters and sizes are 64-bit words; the ring is
addressed by byte offsets, and a message is stored at the offset of its first byte.

* `beginWrite`, `commitWrite`, `beginRead`, `commitRead` — the four calls on the
  counters.
-/

namespace Fmq

/-! ## Words -/

/-- The number of values of `size_t` and `uint64_t`. -/
def wordSize : Nat := 2 ^ 64

/-- Addition, subtraction and multiplication of words wrap around. -/
def addWord (a b : Nat) : Nat := (a + b) % wordSize

def subWord (a b : Nat) : Nat := (a + wordSize - b) % wordSize

def mulWord (a b : Nat) : Nat := a * b % wordSize

/-! ## Descriptor and transactions -/

inductive MQFlavor where
  | kSynchronizedReadWrite
  | kUnsynchronizedWrite
  deriving DecidableEq, Repr

/-- What a queue is built with: the message size `sizeof(T)` and the ring size in
bytes, a positive multiple of it. -/
structure Descriptor where
  quantum : Nat
  size : Nat
  quantum_pos : 0 < quantum
  size_pos : 0 < size
  quantum_dvd : quantum ∣ size
  size_lt : size < wordSize

def Descriptor.getQuantumCount (d : Descriptor) : Nat := d.size / d.quantum

/-- A part of the ring: its byte offset (`none` for the null pointer) and its length
in messages. -/
structure MemRegion where
  address : Option Nat := none
  length : Nat := 0
  deriving DecidableEq, Repr

structure MemTransaction where
  first : MemRegion := {}
  second : MemRegion := {}
  deriving DecidableEq, Repr

/-- The transaction over `nMessages` messages from counter `ptr` on, as both
`beginWrite` and `beginRead` build it. -/
def transaction (d : Descriptor) (ptr nMessages : Nat) : MemTransaction :=
  let offset := ptr % d.size
  let contiguousMessages := (d.size - offset) / d.quantum
  if contiguousMessages < nMessages then
    -- wrap around is required
    { first := { address := some offset, length := contiguousMessages }
      second := { address := some 0, length := nMessages - contiguousMessages } }
  else { first := { address := some offset, length := nMessages } }

/-! ## Calls on the counters -/

def availableToReadBytes (writePtr readPtr : Nat) : Nat := subWord writePtr readPtr

def availableToWriteBytes (d : Descriptor) (writePtr readPtr : Nat) : Nat :=
  subWord d.size (availableToReadBytes writePtr readPtr)

def availableToWrite (d : Descriptor) (writePtr readPtr : Nat) : Nat :=
  availableToWriteBytes d writePtr readPtr / d.quantum

def availableToRead (d : Descriptor) (writePtr readPtr : Nat) : Nat :=
  availableToReadBytes writePtr readPtr / d.quantum

def beginWrite (d : Descriptor) (flavor : MQFlavor) (writePtr readPtr nMessages : Nat) :
    Option MemTransaction :=
  if (flavor = .kSynchronizedReadWrite ∧ availableToWrite d writePtr readPtr < nMessages) ∨
      d.getQuantumCount < nMessages then none
  else some (transaction d writePtr nMessages)

/-- The write counter after a commit, which cannot fail. -/
def commitWrite (d : Descriptor) (writePtr nMessages : Nat) : Nat :=
  addWord writePtr (mulWord nMessages d.quantum)

/-- The transaction, if there is one, and the read counter afterwards. -/
def beginRead (d : Descriptor) (writePtr readPtr nMessages : Nat) : Option MemTransaction × Nat :=
  if d.size < subWord writePtr readPtr then
    -- the data was overwritten: skip to the writer
    (none, writePtr)
  else if subWord writePtr readPtr < mulWord nMessages d.quantum then (none, readPtr)
  else (some (transaction d readPtr nMessages), readPtr)

/-- Whether the commit succeeds, and the read counter afterwards. -/
def commitRead (d : Descriptor) (writePtr readPtr nMessages : Nat) : Bool × Nat :=
  if d.size < subWord writePtr readPtr then (false, writePtr)
  else (true, addWord readPtr (mulWord nMessages d.quantum))

/-! ## Copies -/

/-- The pieces of a copy: counts and base offsets in the two regions. -/
structure RegionInfo where
  firstCount : Nat
  secondCount : Nat
  firstBaseAddress : Option Nat
  secondBaseAddress : Option Nat
  deriving DecidableEq, Repr

/-- `getMemRegionInfo`; `none` when the messages do not fit the transaction. -/
def getMemRegionInfo (d : Descriptor) (tx : MemTransaction) (startIdx nMessages : Nat) :
    Option RegionInfo :=
  let firstRegionLength := tx.first.length
  let secondRegionLength := tx.second.length
  if addWord firstRegionLength secondRegionLength < addWord startIdx nMessages then none
  else
    let firstCount :=
      if startIdx < firstRegionLength then min nMessages (firstRegionLength - startIdx) else 0
    let secondCount := nMessages - firstCount
    let secondStartIdx :=
      if firstRegionLength < startIdx then startIdx - firstRegionLength else 0
    some
      { firstCount := firstCount
        secondCount := secondCount
        firstBaseAddress :=
          if firstCount ≠ 0 then tx.first.address.map (· + startIdx * d.quantum) else none
        secondBaseAddress :=
          if secondCount ≠ 0 then tx.second.address.map (· + secondStartIdx * d.quantum)
          else none }

/-- `getSlot`: the byte offset of slot `idx`, `none` for the null pointer. -/
def getSlot (d : Descriptor) (tx : MemTransaction) (idx : Nat) : Option Nat :=
  if addWord tx.first.length tx.second.length < idx then none
  else if idx < tx.first.length then tx.first.address.map (· + idx * d.quantum)
  else tx.second.address.map (· + (idx - tx.first.length) * d.quantum)

variable {T ι : Type}

/-- The messages that a `memcpy` of `count` messages copies in full: its length in bytes is
a word. -/
def Descriptor.copied (d : Descriptor) (count : Nat) : Nat := mulWord count d.quantum / d.quantum

/-- `memcpy` out of the ring: `count` messages from a base offset on. -/
def readMessages (d : Descriptor) (ring : Nat → T) : Option Nat → Nat → List T
  | some base, count => (List.range (d.copied count)).map fun j => ring (base + j * d.quantum)
  | none, _ => []

/-- `memcpy` into the ring. -/
def writeMessages (d : Descriptor) (ring : Nat → T) : Option Nat → List T → Nat → T
  | some _, [] => ring
  | some base, x :: xs =>
    writeMessages d (Function.update ring base x) (some (base + d.quantum)) xs
  | none, _ => ring

/-- The messages a copy out of the ring delivers. -/
def copyFrom (d : Descriptor) (ring : Nat → T) (tx : MemTransaction) (startIdx nMessages : Nat) :
    Option (List T) :=
  (getMemRegionInfo d tx startIdx nMessages).map fun info =>
    readMessages d ring info.firstBaseAddress info.firstCount ++
      readMessages d ring info.secondBaseAddress info.secondCount

/-- The ring after a copy of the messages in `data` into it. -/
def copyTo (d : Descriptor) (ring : Nat → T) (tx : MemTransaction) (data : List T)
    (startIdx : Nat) : Option (Nat → T) :=
  (getMemRegionInfo d tx startIdx data.length).map fun info =>
    writeMessages d
      (writeMessages d ring info.firstBaseAddress (data.take (d.copied info.firstCount)))
      info.secondBaseAddress ((data.drop info.firstCount).take (d.copied info.secondCount))

/-! ## Interleavings -/

/-- Where one side is between `begin` and `commit`. -/
inductive Phase (T : Type) where
  | idle
  | begun (nMessages : Nat) (tx : MemTransaction)
  | copied (nMessages : Nat) (tx : MemTransaction) (data : List T)

/-- One reader: its read counter and phase.  Its history is the stream position of the
counter and the committed reads, each with the position it started from. -/
structure Reader (T : Type) where
  readPtr : Nat := 0
  phase : Phase T := .idle
  pos : Nat := 0
  reads : List (Nat × List T) := []

/-- The messages of the committed reads, in order. -/
def Reader.received (r : Reader T) : List T := (r.reads.map (·.2)).flatten

/-- The shared ring and write counter, the writer, and the readers.  `written` is the
history of the committed writes. -/
structure State (ι T : Type) where
  ring : Nat → T
  writePtr : Nat := 0
  writer : Phase T := .idle
  written : List T := []
  readers : ι → Reader T := fun _ => {}

/-- The calls of the writer and of the readers.  A copy takes the whole batch of its
transaction, and a commit has the count of its `begin`. -/
inductive Event (ι T : Type) where
  | beginWrite (nMessages : UInt64)
  | copyTo (data : List T)
  | commitWrite
  | beginRead (reader : ι) (nMessages : UInt64)
  | copyFrom (reader : ι)
  | commitRead (reader : ι)

/-- The queue as its users see it: the descriptor, the flavor, and the reader whose
counter the writer of a synchronized queue looks at. -/
structure Queue (ι : Type) where
  desc : Descriptor
  flavor : MQFlavor
  peer : ι

/-- The messages the writer has copied into the ring and not committed. -/
def Phase.inflight : Phase T → List T
  | .copied _ _ data => data
  | _ => []

/-- The writer's copy of a batch of the size it has begun. -/
def State.writerCopy (q : Queue ι) (s : State ι T) (nMessages : Nat) (tx : MemTransaction)
    (data : List T) : State ι T :=
  if data.length = nMessages then
    match copyTo q.desc s.ring tx data 0 with
    | some ring => { s with ring := ring, writer := .copied nMessages tx data }
    | none => s
  else s

/-- A reader's copy.  The caller's buffer has room for the messages, so their bytes are
counted by a word. -/
def Reader.copy (q : Queue ι) (ring : Nat → T) (r : Reader T) (nMessages : Nat)
    (tx : MemTransaction) : Reader T :=
  if nMessages * q.desc.quantum < wordSize then
    match copyFrom q.desc ring tx 0 nMessages with
    | some data => { r with phase := .copied nMessages tx data }
    | none => r
  else r

/-- A reader's commit of the messages it has copied. -/
def Reader.commit (q : Queue ι) (writePtr written : Nat) (r : Reader T) (nMessages : Nat)
    (data : List T) : Reader T :=
  if (commitRead q.desc writePtr r.readPtr nMessages).1 then
    { readPtr := (commitRead q.desc writePtr r.readPtr nMessages).2
      phase := .idle
      pos := r.pos + nMessages
      reads := r.reads ++ [(r.pos, data)] }
  else
    { r with
      readPtr := (commitRead q.desc writePtr r.readPtr nMessages).2
      phase := .idle
      pos := written }

/-- The phase after `beginRead`. -/
def Phase.ofBegin (nMessages : Nat) : Option MemTransaction → Phase T
  | some tx => .begun nMessages tx
  | none => .idle

/-- A reader's `beginRead`; a failure that skips to the writer moves its position. -/
def Reader.start (q : Queue ι) (writePtr written : Nat) (r : Reader T) (nMessages : Nat) :
    Reader T :=
  { r with
    readPtr := (beginRead q.desc writePtr r.readPtr nMessages).2
    phase := .ofBegin nMessages (beginRead q.desc writePtr r.readPtr nMessages).1
    pos := if q.desc.size < subWord writePtr r.readPtr then written else r.pos }

variable [DecidableEq ι]

/-- Replace one reader. -/
def State.setReader (s : State ι T) (i : ι) (r : Reader T) : State ι T :=
  { s with readers := Function.update s.readers i r }

/-- One call.  A call that does not fit the phase of its side is not made. -/
def State.step (q : Queue ι) (s : State ι T) : Event ι T → State ι T
  | .beginWrite n =>
    match s.writer with
    | .copied _ _ _ => s
    | _ =>
      match beginWrite q.desc q.flavor s.writePtr (s.readers q.peer).readPtr n.toNat with
      | some tx => { s with writer := .begun n.toNat tx }
      | none => { s with writer := .idle }
  | .copyTo data =>
    match s.writer with
    | .idle => s
    | .begun n tx => s.writerCopy q n tx data
    | .copied n tx _ => s.writerCopy q n tx data
  | .commitWrite =>
    match s.writer with
    | .copied n _ data =>
      { s with
        writePtr := commitWrite q.desc s.writePtr n
        writer := .idle
        written := s.written ++ data }
    | _ => s
  | .beginRead i n =>
    s.setReader i ((s.readers i).start q s.writePtr s.written.length n.toNat)
  | .copyFrom i =>
    match (s.readers i).phase with
    | .idle => s
    | .begun n tx => s.setReader i ((s.readers i).copy q s.ring n tx)
    | .copied n tx _ => s.setReader i ((s.readers i).copy q s.ring n tx)
  | .commitRead i =>
    match (s.readers i).phase with
    | .copied n _ data =>
      s.setReader i ((s.readers i).commit q s.writePtr s.written.length n data)
    | _ => s

/-- The state after a list of calls, from an empty queue over arbitrary memory. -/
def run (q : Queue ι) (ring : Nat → T) (events : List (Event ι T)) : State ι T :=
  events.foldl (State.step q) { ring := ring }

end Fmq
