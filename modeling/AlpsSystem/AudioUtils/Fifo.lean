import AlpsSystem.AudioUtils.FifoIndex
import AlpsSystem.Lib.Ring
import AlpsSystem.Lib.Runs

/-!
# A fifo with one writer and one throttling reader

The calls of `audio_utils_fifo_writer` and `audio_utils_fifo_reader`, cut into atomic steps: a load
or a store of one of the two shared indices, the copy of one frame, the end of a wait.  What a
thread computes from its own fields belongs to the step before.

* `writerStep`, `readerStep` — the next atomic step of a running call.
* `Event`, `step` — any interleaving of the two sides, with any calls.

A wait on an index may end at any time and in any way, so that waking a waiting thread has no effect
of its own.  `written`, `output` and `seen` record what the correctness statements speak of.
-/

namespace AudioUtils

variable {F : Type}

/-! ## Slices -/

/-- The two parts of a slice, `audio_utils_iovec[2]`. -/
structure Slice where
  offset0 : Nat := 0
  length0 : Nat := 0
  offset1 : Nat := 0
  length1 : Nat := 0
  deriving DecidableEq, Repr

/-- The slot of a frame of the slice. -/
def Slice.slot (s : Slice) (j : Nat) : Nat :=
  if j < s.length0 then s.offset0 + j else s.offset1 + (j - s.length0)

/-- The end of `obtain`: the slice of the given length that starts at an index. -/
def Config.slice (c : Config) (index : UInt32) (avail : Nat) : Slice :=
  let offset := (index &&& (c.frameCountP2 - 1)).toNat
  let part1 := if c.frameCount.toNat - offset > avail then avail else c.frameCount.toNat - offset
  let part2 := if part1 > 0 then avail - part1 else 0
  ⟨offset, part1, 0, part2⟩

/-! ## Waiting -/

inductive Timeout where
  | null | zero | finite | forever
  deriving DecidableEq, Repr

/-- How a wait on an index ends. -/
inductive WaitResult where
  | woken | ewouldblock | eintr | etimedout
  deriving DecidableEq, Repr

/-- The variables of the loop in `obtain`. -/
structure Loop where
  timeout : Timeout
  retries : Nat := 2
  err : Option Errno := none
  deriving DecidableEq, Repr

/-- The rest of the loop body after the wait. -/
def Loop.afterWait (l : Loop) : WaitResult → Loop
  | .woken => { l with timeout := .null, err := none }
  | .ewouldblock =>
    if l.retries > 0 then
      -- the loop goes on with the -1 of the call as `err`
      { timeout := if l.timeout = .forever then .null else l.timeout
        retries := l.retries - 1
        err := some .eperm }
    else { l with timeout := .null, err := some .ewouldblock }
  | .eintr => { l with timeout := .null, err := some .eintr }
  | .etimedout => { l with timeout := .null, err := some .etimedout }

/-- No more waiting. -/
def Loop.over (l : Loop) : Bool := l.timeout = .null || l.timeout = .zero

/-- What `obtain` returns. -/
def returnValue (avail : Nat) (err : Option Errno) : Except Errno Nat :=
  if avail > 0 then .ok avail
  else
    match err with
    | some e => .error e
    | none => .ok 0

/-! ## The two sides -/

/-- A call of `write` or of `obtain`. -/
inductive WriteCall (F : Type) where
  | write (frames : List F)
  | obtain (count : Nat)

def WriteCall.count : WriteCall F → Nat
  | .write frames => frames.length
  | .obtain count => count

/-- Where the writer's call stands; a release belongs to a call of `write` with the given frames, or
is a call of its own. -/
inductive WriterPc (F : Type) where
  | idle
  | loading (call : WriteCall F) (loop : Loop)
  | waiting (call : WriteCall F) (loop : Loop)
  | copying (frames : List F) (done : Nat)
  | releasing (frames : Option (List F)) (count : Nat)
  | storing (frames : Option (List F)) (count : Nat) (filled : Except Errno UInt32)

/-- The fields of `audio_utils_fifo_writer`; of the slice last obtained, `taken` frames have been
released. -/
structure Writer (F : Type) where
  localRear : UInt32 := 0
  obtained : Nat := 0
  totalReleased : UInt64 := 0
  armLevel : Nat
  triggerLevel : Nat := 0
  isArmed : Bool := true
  effectiveFrames : Nat
  slice : Slice := {}
  taken : Nat := 0
  returned : Except Errno Nat := .ok 0
  pc : WriterPc F := .idle

/-- A call of `read` or of `obtain`. -/
inductive ReadCall where
  | read (count : Nat)
  | obtain (count : Nat)

def ReadCall.count : ReadCall → Nat
  | .read count => count
  | .obtain count => count

/-- Where the reader's call stands, with the frames that a call of `read` has copied. -/
inductive ReaderPc (F : Type) where
  | idle
  | loading (call : ReadCall) (loop : Loop)
  | waiting (call : ReadCall) (loop : Loop)
  | copying (frames : List F)
  | releasing (frames : Option (List F)) (count : Nat)
  | storing (frames : Option (List F)) (count : Nat) (filled : Except Errno UInt32)

/-- The fields of `audio_utils_fifo_reader`. -/
structure Reader (F : Type) where
  localFront : UInt32 := 0
  obtained : Nat := 0
  totalReleased : UInt64 := 0
  flush : Bool
  armLevel : Int := -1
  triggerLevel : Nat
  isArmed : Bool := true
  totalLost : UInt64 := 0
  slice : Slice := {}
  taken : Nat := 0
  returned : Except Errno Nat := .ok 0
  pc : ReaderPc F := .idle

structure State (F : Type) where
  writerRear : UInt32 := 0
  throttleFront : UInt32 := 0
  buffer : Nat → F
  isShutdown : Bool := false
  writer : Writer F
  reader : Reader F
  /-- The frames released by the writer. -/
  written : List F := []
  /-- The frames released by the reader, as it has read them. -/
  output : List F := []
  /-- The frames that the reader's client has looked at, with their positions. -/
  seen : List (Nat × F) := []

/-- The state after construction, with any contents of the buffer. -/
def Config.initial (c : Config) (buffer : Nat → F) (flush : Bool) : State F where
  buffer := buffer
  writer := { armLevel := c.frameCount.toNat, effectiveFrames := c.frameCount.toNat }
  reader := { flush := flush, triggerLevel := c.frameCount.toNat }

/-- The frames of the next `count` slots of a slice. -/
def contents (buffer : Nat → F) (slice : Slice) (taken count : Nat) : List F :=
  (List.range count).map fun j => buffer (slice.slot (taken + j))

/-- The frames that a release hands over: those copied by a call, or what its client has put into or
finds in the slice. -/
def released (frames : Option (List F)) (buffer : Nat → F) (slice : Slice) (taken count : Nat) :
    List F :=
  match frames with
  | some frames => frames.take count
  | none => contents buffer slice taken count

/-! ## The writer's steps -/

/-- The end of the writer's `obtain`, and what `write` does next. -/
def Writer.finishObtain (w : Writer F) (c : Config) (call : WriteCall F) (avail : Nat)
    (err : Option Errno) : Writer F :=
  let avail := if avail > call.count then call.count else avail
  { w with
    slice := c.slice w.localRear avail
    obtained := avail
    taken := 0
    returned := returnValue avail err
    pc :=
      match call with
      | .write frames => if avail > 0 then .copying frames 0 else .idle
      | .obtain _ => .idle }

/-- The hysteresis of the writer's `release`. -/
def Writer.arm (w : Writer F) (filled : Except Errno UInt32) (count : Nat) : Bool :=
  match filled with
  | .error _ => w.isArmed
  | .ok filled =>
    let isArmed := w.isArmed || filled.toNat < w.armLevel
    isArmed && !(filled.toNat + count > w.triggerLevel)

def writerStep (c : Config) (s : State F) (result : WaitResult) : State F :=
  match s.writer.pc with
  | .idle => s
  | .loading call loop =>
    let d := c.diff s.isShutdown s.writer.localRear s.throttleFront false
    match d.filled with
    | .error e =>
      { s with isShutdown := d.isShutdown, writer := s.writer.finishObtain c call 0 (some e) }
    | .ok filled =>
      let avail := if s.writer.effectiveFrames > filled.toNat then
        s.writer.effectiveFrames - filled.toNat else 0
      if call.count = 0 ∨ avail > 0 ∨ loop.over then
        { s with writer := s.writer.finishObtain c call avail loop.err }
      else { s with writer := { s.writer with pc := .waiting call loop } }
  | .waiting call loop =>
    { s with writer := { s.writer with pc := .loading call (loop.afterWait result) } }
  | .copying frames done =>
    match decide (done < s.writer.obtained), frames[done]? with
    | true, some frame =>
      { s with
        buffer := Function.update s.buffer (s.writer.slice.slot done) frame
        writer := { s.writer with pc := .copying frames (done + 1) } }
    | _, _ =>
      { s with writer := { s.writer with pc := .releasing (some frames) s.writer.obtained } }
  | .releasing frames count =>
    let d := c.diff s.isShutdown s.writer.localRear s.throttleFront false
    { s with
      isShutdown := d.isShutdown
      writer := { s.writer with pc := .storing frames count d.filled } }
  | .storing frames count filled =>
    let rear := c.sum s.writer.localRear (UInt32.ofNat count)
    { s with
      writerRear := rear
      writer := { s.writer with
        localRear := rear
        isArmed := s.writer.arm filled count
        obtained := s.writer.obtained - count
        totalReleased := s.writer.totalReleased + UInt64.ofNat count
        taken := s.writer.taken + count
        pc := .idle }
      written := s.written ++ released frames s.buffer s.writer.slice s.writer.taken count }

def Writer.resize (w : Writer F) (c : Config) (frameCount : Nat) : Writer F :=
  let frameCount := if frameCount > c.frameCount.toNat then c.frameCount.toNat else frameCount
  if frameCount < w.effectiveFrames then
    { w with
      armLevel := if w.armLevel > frameCount then frameCount else w.armLevel
      triggerLevel := if w.triggerLevel > frameCount then frameCount else w.triggerLevel
      effectiveFrames := frameCount }
  else { w with effectiveFrames := frameCount }

/-! ## The reader's steps -/

/-- The end of the reader's `obtain`, and what `read` does next. -/
def Reader.finishObtain (r : Reader F) (c : Config) (call : ReadCall) (rear : UInt32) (d : Diff)
    (err : Option Errno) : Reader F :=
  let localFront :=
    match d.filled with
    | .error .eoverflow => rear - (if r.flush then 0 else c.frameCountP2)
    | _ => r.localFront
  let avail :=
    match d.filled with
    | .ok filled => if filled.toNat > call.count then call.count else filled.toNat
    | .error _ => 0
  { r with
    localFront := localFront
    totalLost := r.totalLost + d.lost.toUInt64
    totalReleased := r.totalReleased + d.lost.toUInt64
    slice := c.slice localFront avail
    obtained := avail
    taken := 0
    returned := returnValue avail (match d.filled with | .error e => some e | .ok _ => err)
    pc :=
      match call with
      | .read _ => if avail > 0 then .copying [] else .idle
      | .obtain _ => .idle }

/-- The hysteresis of the reader's `release`. -/
def Reader.arm (r : Reader F) (filled : Except Errno UInt32) (count : Nat) : Bool :=
  match filled with
  | .error _ => r.isArmed
  | .ok filled =>
    let isArmed := r.isArmed || decide ((filled.toNat : Int) > r.armLevel)
    isArmed && !decide ((filled.toNat + 2 ^ 64 - count) % 2 ^ 64 < r.triggerLevel)

def readerStep (c : Config) (s : State F) (result : WaitResult) : State F :=
  match s.reader.pc with
  | .idle => s
  | .loading call loop =>
    if call.count = 0 ∨ s.writerRear ≠ s.reader.localFront ∨ loop.over then
      let d := c.diff s.isShutdown s.writerRear s.reader.localFront s.reader.flush
      { s with
        isShutdown := d.isShutdown
        reader := s.reader.finishObtain c call s.writerRear d loop.err }
    else { s with reader := { s.reader with pc := .waiting call loop } }
  | .waiting call loop =>
    { s with reader := { s.reader with pc := .loading call (loop.afterWait result) } }
  | .copying frames =>
    if frames.length < s.reader.obtained then
      { s with reader := { s.reader with
        pc := .copying (frames ++ [s.buffer (s.reader.slice.slot frames.length)]) } }
    else { s with reader := { s.reader with pc := .releasing (some frames) s.reader.obtained } }
  | .releasing frames count =>
    let d := c.diff s.isShutdown s.writerRear s.reader.localFront false
    { s with
      isShutdown := d.isShutdown
      reader := { s.reader with pc := .storing frames count d.filled } }
  | .storing frames count filled =>
    let front := c.sum s.reader.localFront (UInt32.ofNat count)
    { s with
      throttleFront := front
      reader := { s.reader with
        localFront := front
        isArmed := s.reader.arm filled count
        obtained := s.reader.obtained - count
        totalReleased := s.reader.totalReleased + UInt64.ofNat count
        taken := s.reader.taken + count
        pc := .idle }
      output := s.output ++ released frames s.buffer s.reader.slice s.reader.taken count }

/-! ## Events -/

/-- What the writer's thread does next: a call, a frame put into the slice, or a step of the call
that is running. -/
inductive WriterOp (F : Type) where
  | write (frames : List F) (timeout : Timeout)
  | obtain (count : Nat) (timeout : Timeout)
  | put (j : Nat) (frame : F)
  | release (count : Nat)
  | resize (frameCount : Nat)
  | next (result : WaitResult)

/-- What the reader's thread does next. -/
inductive ReaderOp where
  | read (count : Nat) (timeout : Timeout)
  | obtain (count : Nat) (timeout : Timeout)
  | get (j : Nat)
  | release (count : Nat)
  | next (result : WaitResult)

/-- The writer's client may put frames into the part of the slice that it has not released. -/
def writerCall (c : Config) (s : State F) : WriterOp F → State F
  | .write frames timeout =>
    { s with writer := { s.writer with pc := .loading (.write frames) { timeout := timeout } } }
  | .obtain count timeout =>
    { s with writer := { s.writer with pc := .loading (.obtain count) { timeout := timeout } } }
  | .put j frame =>
    if s.writer.taken ≤ j ∧ j < s.writer.taken + s.writer.obtained then
      { s with buffer := Function.update s.buffer (s.writer.slice.slot j) frame }
    else s
  | .release count =>
    if count = 0 then s
    else if count > s.writer.obtained then { s with isShutdown := true }
    else { s with writer := { s.writer with pc := .releasing none count } }
  | .resize frameCount => { s with writer := s.writer.resize c frameCount }
  | .next _ => s

/-- The reader's client may look at the part of the slice that it has not released. -/
def readerCall (s : State F) : ReaderOp → State F
  | .read count timeout =>
    { s with reader := { s.reader with pc := .loading (.read count) { timeout := timeout } } }
  | .obtain count timeout =>
    { s with reader := { s.reader with pc := .loading (.obtain count) { timeout := timeout } } }
  | .get j =>
    if s.reader.taken ≤ j ∧ j < s.reader.taken + s.reader.obtained then
      { s with seen := s.seen ++
        [(s.output.length + (j - s.reader.taken), s.buffer (s.reader.slice.slot j))] }
    else s
  | .release count =>
    if count = 0 then s
    else if count > s.reader.obtained then { s with isShutdown := true }
    else { s with reader := { s.reader with pc := .releasing none count } }
  | .next _ => s

inductive Event (F : Type) where
  | writer (op : WriterOp F)
  | reader (op : ReaderOp)

/-- A client calls only when its last call has returned. -/
def step (c : Config) (s : State F) : Event F → State F
  | .writer (.next result) => writerStep c s result
  | .writer op =>
    match s.writer.pc with
    | .idle => writerCall c s op
    | _ => s
  | .reader (.next result) => readerStep c s result
  | .reader op =>
    match s.reader.pc with
    | .idle => readerCall s op
    | _ => s

end AudioUtils
