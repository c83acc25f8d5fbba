import AlpsSystem.AudioUtils.Fifo

/-!
# The fifo is exact

`Inv` relates the two indices to the stream of frames: each side's index is that of the number of
frames it has released, and the buffer holds the frames in between.  What a side has obtained is out
of reach of the other side.  From this, the frames read are the frames written, in order, and an
`obtain` gives all that there is at the moment of its load (`fifo_exact`).
-/

namespace AudioUtils

open Runs Ring List

variable {F : Type} {c : Config} {s : State F}

/-! ## Slices -/

open Config

lemma slice_slot (p : Nat) {n j : Nat} (hj : j < n) (hn : n ≤ c.N) :
    (c.slice (c.index p) n).slot j = (p + j) % c.N := by
  rw [add_mod_eq c.N_pos (by omega)]
  simp only [slice, Slice.slot, c.index_and_mask]
  rw [show c.frameCount.toNat = c.N from rfl]
  split <;> split <;> omega

/-! ## The invariant -/

/-- What a running call of the writer has done: the frames copied are in the buffer. -/
def WriterPc.Ok (N obtained taken : Nat) (buffer : Nat → F) (W : Nat) : WriterPc F → Prop
  | .copying frames done => taken = 0 ∧ 0 < obtained ∧ obtained ≤ frames.length ∧
      done ≤ obtained ∧ frames.take done = Ring.get buffer N W done
  | .releasing frames count | .storing frames count _ => 0 < count ∧ count ≤ obtained ∧
      ∀ fs, frames = some fs → fs.take count = Ring.get buffer N W count
  | _ => True

/-- What a running call of the reader has done: the frames copied are the next ones written. -/
def ReaderPc.Ok (obtained taken : Nat) (upcoming : List F) : ReaderPc F → Prop
  | .copying frames => taken = 0 ∧ 0 < obtained ∧ frames.length ≤ obtained ∧
      frames = upcoming.take frames.length
  | .releasing frames count | .storing frames count _ => 0 < count ∧ count ≤ obtained ∧
      ∀ fs, frames = some fs → fs = upcoming.take count
  | _ => True

/-- Frames that are added behind do not matter to a running call. -/
lemma ReaderPc.Ok.append {obtained taken : Nat} {upcoming : List F} {pc : ReaderPc F}
    (h : pc.Ok obtained taken upcoming) (hlen : obtained ≤ upcoming.length) (more : List F) :
    pc.Ok obtained taken (upcoming ++ more) := by
  cases pc with
  | idle | loading | waiting => trivial
  | copying frames =>
    obtain ⟨htaken, hpos, hle, hframes⟩ := h
    refine ⟨htaken, hpos, hle, ?_⟩
    rwa [take_append_of_le_length (by omega)]
  | releasing | storing =>
    obtain ⟨hpos, hle, hframes⟩ := h
    refine ⟨hpos, hle, fun fs hfs => ?_⟩
    rw [take_append_of_le_length (by omega)]
    exact hframes fs hfs

structure Inv (c : Config) (s : State F) : Prop where
  rear : s.writerRear = c.index s.written.length
  localRear : s.writer.localRear = c.index s.written.length
  front : s.throttleFront = c.index s.output.length
  localFront : s.reader.localFront = c.index s.output.length
  running : s.isShutdown = false
  effective : s.writer.effectiveFrames ≤ c.N
  room : s.written.length + s.writer.obtained ≤ s.output.length + c.N
  stock : s.output.length + s.reader.obtained ≤ s.written.length
  holds : Holds s.buffer c.N s.written s.output.length s.written.length
  output : s.output = s.written.take s.output.length
  seen : ∀ p x, (p, x) ∈ s.seen → s.written[p]? = some x
  lost : s.reader.totalLost = 0
  writerSlice : ∀ j < s.writer.obtained,
    s.writer.slice.slot (s.writer.taken + j) = (s.written.length + j) % c.N
  readerSlice : ∀ j < s.reader.obtained,
    s.reader.slice.slot (s.reader.taken + j) = (s.output.length + j) % c.N
  writerPc : s.writer.pc.Ok c.N s.writer.obtained s.writer.taken s.buffer s.written.length
  readerPc : s.reader.pc.Ok s.reader.obtained s.reader.taken (s.written.drop s.output.length)

namespace Inv

variable {s : State F}

variable (h : Inv c s) {count j : Nat} {loop : Loop}

include h

open UInt32 (ofNat)

lemma filled_toNat :
    (ofNat (s.written.length - s.output.length)).toNat =
      s.written.length - s.output.length := by
  have := c.N_lt
  have := h.room
  rw [UInt32.toNat_ofNat', Nat.mod_eq_of_lt (by omega)]

/-- Both sides see the number of frames between the indices. -/
lemma diff_eq (flush : Bool) :
    c.diff false (c.index s.written.length) (c.index s.output.length) flush =
      ⟨.ok (ofNat (s.written.length - s.output.length)), 0, false⟩ := by
  have hroom := h.room
  have hstock := h.stock
  have := c.diff_index s.output.length
    (show s.written.length - s.output.length ≤ c.N by omega) flush
  rwa [Nat.add_sub_cancel' (by omega)] at this

lemma writer_diff :
    c.diff s.isShutdown s.writer.localRear s.throttleFront false =
      ⟨.ok (ofNat (s.written.length - s.output.length)), 0, false⟩ := by
  rw [h.running, h.localRear, h.front]
  exact h.diff_eq false

lemma reader_diff (flush : Bool) :
    c.diff s.isShutdown s.writerRear s.reader.localFront flush =
      ⟨.ok (ofNat (s.written.length - s.output.length)), 0, false⟩ := by
  rw [h.running, h.rear, h.localFront]
  exact h.diff_eq flush

omit h in
theorem contents_eq {buffer : Nat → F} {slice : Slice} {taken pos obtained : Nat}
    (hcount : count ≤ obtained)
    (hslice : ∀ j < obtained, slice.slot (taken + j) = (pos + j) % c.N) :
    contents buffer slice taken count = Ring.get buffer c.N pos count := by
  refine map_congr_left fun j hj => ?_
  rw [hslice j (by have := mem_range.mp hj; omega)]

/-! ## The writer -/

lemma finishObtain (call : WriteCall F) {avail : Nat}
    (havail : s.written.length + avail ≤ s.output.length + c.N) (err : Option Errno) :
    Inv c { s with writer := s.writer.finishObtain c call avail err } := by
  have hstock := h.stock
  obtain ⟨n, hn, hle, hcount⟩ : ∃ n, (if avail > call.count then call.count else avail) = n ∧
      n ≤ avail ∧ n ≤ call.count := ⟨_, rfl, by split <;> omega, by split <;> omega⟩
  simp only [Writer.finishObtain, hn]
  refine { h with room := ?_, writerSlice := ?_, writerPc := ?_ }
  · dsimp only
    omega
  · intro j hj
    rw [h.localRear, zero_add]
    exact slice_slot _ hj (by omega)
  · cases call with
    | write frames =>
      dsimp only
      split
      · next hpos => exact ⟨rfl, hpos, hcount, Nat.zero_le n, rfl⟩
      · trivial
    | obtain count => trivial

/-- A frame may be put into any slot that the writer has obtained. -/
lemma putFrame (hj : j < s.writer.obtained) (frame : F) (pc : WriterPc F)
    (hpc : pc.Ok c.N s.writer.obtained s.writer.taken
      (Function.update s.buffer ((s.written.length + j) % c.N) frame) s.written.length) :
    Inv c { s with
      buffer := Function.update s.buffer (s.writer.slice.slot (s.writer.taken + j)) frame
      writer := { s.writer with pc } } := by
  have hroom := h.room
  rw [h.writerSlice j hj]
  exact { h with
    holds := h.holds.update (by omega) (by omega) frame
    writerPc := hpc }

/-- **The writer's store** releases frames that lie in the buffer. -/
theorem releaseFrames (hcount : count ≤ s.writer.obtained)
    (isArmed : Bool) : Inv c { s with
      writerRear := c.sum s.writer.localRear (ofNat count)
      writer := { s.writer with
        localRear := c.sum s.writer.localRear (ofNat count)
        isArmed := isArmed
        obtained := s.writer.obtained - count
        totalReleased := s.writer.totalReleased + UInt64.ofNat count
        taken := s.writer.taken + count
        pc := .idle }
      written := s.written ++ get s.buffer c.N s.written.length count } := by
  have hroom := h.room
  have hstock := h.stock
  have hlen : (s.written ++ get s.buffer c.N s.written.length count).length =
      s.written.length + count := by simp
  have hrear : c.sum s.writer.localRear (ofNat count) =
      c.index (s.written.length + count) := by
    rw [h.localRear, c.sum_index _ (by omega)]
  refine
    { rear := ?_, localRear := ?_, front := h.front, localFront := h.localFront,
      running := h.running, effective := h.effective, room := ?_, stock := ?_, holds := ?_,
      output := ?_, seen := ?_, lost := h.lost, writerSlice := ?_, readerSlice := h.readerSlice,
      writerPc := trivial, readerPc := ?_ } <;> dsimp only
  · rw [hlen, hrear]
  · rw [hlen, hrear]
  · omega
  · omega
  · rw [hlen]
    exact h.holds.extend count
  · rw [take_append_of_le_length (by omega)]
    exact h.output
  · intro p x hx
    have hp := h.seen p x hx
    rw [List.getElem?_append_left (List.getElem?_eq_some_iff.mp hp).1, hp]
  · intro j hj
    rw [hlen, add_assoc, h.writerSlice (count + j) (by omega), add_assoc]
  · rw [drop_append_of_le_length (by omega)]
    refine h.readerPc.append ?_ _
    rw [length_drop]
    omega

open AudioUtils

/-- The load of the writer's `obtain` gives the free frames, or it goes on to wait. -/
lemma writerStep_loading {call : WriteCall F}
    (hpc : s.writer.pc = .loading call loop) (result : WaitResult) :
    writerStep c s result = { s with
      writer := (s.writer.finishObtain c call
        (s.writer.effectiveFrames - (s.written.length - s.output.length)) loop.err) } ∨
    (s.writer.effectiveFrames - (s.written.length - s.output.length) = 0 ∧
      writerStep c s result = { s with writer := { s.writer with pc := .waiting call loop } }) := by
  simp only [writerStep, hpc, h.writer_diff, h.filled_toNat]
  have havail : (if s.writer.effectiveFrames > s.written.length - s.output.length then
      s.writer.effectiveFrames - (s.written.length - s.output.length) else 0) =
      s.writer.effectiveFrames - (s.written.length - s.output.length) := by
    split <;> omega
  rw [havail]
  split
  · exact .inl rfl
  · next hwait =>
    exact .inr ⟨Nat.eq_zero_of_not_pos fun hpos => hwait (.inr (.inl hpos)), rfl⟩

lemma writerStep (result : WaitResult) : Inv c (writerStep c s result) := by
  have hroom := h.room
  have hstock := h.stock
  cases hpc : s.writer.pc with
  | idle => simpa [AudioUtils.writerStep, hpc] using h
  | loading call loop =>
    rcases h.writerStep_loading hpc result with heq | ⟨-, heq⟩ <;> rw [heq]
    · have := h.effective
      exact h.finishObtain call (by omega) loop.err
    · exact { h with writerPc := trivial }
  | waiting call loop =>
    simp only [AudioUtils.writerStep, hpc]
    exact { h with writerPc := trivial }
  | copying frames done =>
    have hok := h.writerPc
    rw [hpc] at hok
    obtain ⟨htaken, hpos, hle, hdone, hcopied⟩ := hok
    simp only [AudioUtils.writerStep, hpc]
    split
    · next frame hlt hframe =>
      have hlt : done < s.writer.obtained := by simpa using hlt
      have hslot : s.writer.slice.slot done = s.writer.slice.slot (s.writer.taken + done) := by
        rw [htaken, zero_add]
      rw [hslot]
      refine h.putFrame hlt frame (.copying frames (done + 1)) ⟨htaken, hpos, hle, hlt, ?_⟩
      rw [get_succ, Function.update_self, take_add_one, hframe, hcopied]
      congr 1
      refine (map_congr_left fun j hj => ?_).symm
      have := mem_range.mp hj
      exact Function.update_of_ne (mod_ne_mod (by omega) (by omega)) _ _
    · next hnot =>
      have hdone' : done = s.writer.obtained := by
        by_contra hne
        have hlt : done < frames.length := by omega
        exact hnot frames[done] (by simp; omega) (List.getElem?_eq_getElem hlt)
      refine { h with writerPc := ⟨hpos, le_rfl, fun fs hfs => ?_⟩ }
      cases hfs
      rw [← hdone', hcopied]
  | releasing frames count =>
    have hok := h.writerPc
    rw [hpc] at hok
    simp only [AudioUtils.writerStep, hpc, h.writer_diff]
    exact { h with running := rfl, writerPc := hok }
  | storing frames count filled =>
    have hok := h.writerPc
    rw [hpc] at hok
    obtain ⟨hpos, hle, hframes⟩ := hok
    have hdata : released frames s.buffer s.writer.slice s.writer.taken count =
        get s.buffer c.N s.written.length count := by
      cases frames with
      | none => exact contents_eq hle h.writerSlice
      | some fs => exact hframes fs rfl
    simp only [AudioUtils.writerStep, hpc, hdata]
    exact h.releaseFrames hle _

lemma writerCall (hidle : s.writer.pc = .idle) (op : WriterOp F)
    (hfits : ∀ count, op = .release count → count ≤ s.writer.obtained) :
    Inv c (writerCall c s op) := by
  cases op with
  | write | obtain => exact { h with writerPc := trivial }
  | put j frame =>
    simp only [AudioUtils.writerCall]
    split
    · next hj =>
      have := h.putFrame (show j - s.writer.taken < s.writer.obtained by omega) frame .idle trivial
      rwa [Nat.add_sub_cancel' hj.1, ← hidle] at this
    · exact h
  | release count =>
    simp only [AudioUtils.writerCall]
    have hle := hfits count rfl
    split
    · exact h
    · next hne =>
      rw [if_neg (by omega)]
      exact { h with writerPc := ⟨by omega, hle, fun fs hfs => by cases hfs⟩ }
  | resize frameCount =>
    simp only [AudioUtils.writerCall, Writer.resize]
    rw [show c.frameCount.toNat = c.N from rfl]
    generalize hn : (if frameCount > c.N then c.N else frameCount) = n
    have hle : n ≤ c.N := by
      rw [← hn]
      split <;> omega
    split
    · exact { h with effective := hle }
    · exact { h with effective := hle }
  | next result => exact h

/-! ## The reader -/

lemma readerFinishObtain (call : ReadCall) (err : Option Errno) :
    Inv c { s with
      isShutdown := false
      reader := (s.reader.finishObtain c call s.writerRear
        ⟨.ok (ofNat (s.written.length - s.output.length)), 0, false⟩ err) } := by
  have hroom := h.room
  have hstock := h.stock
  simp only [Reader.finishObtain, h.filled_toNat]
  generalize hn : (if s.written.length - s.output.length > call.count then call.count
    else s.written.length - s.output.length) = n
  have hle : n ≤ s.written.length - s.output.length := by
    rw [← hn]
    split <;> omega
  refine { h with running := rfl, stock := ?_, lost := ?_, readerSlice := ?_, readerPc := ?_ }
  · dsimp only
    omega
  · dsimp only
    rw [h.lost]
    rfl
  · intro j hj
    rw [h.localFront, zero_add]
    exact slice_slot _ hj (by omega)
  · cases call with
    | read count =>
      dsimp only
      split
      · next hpos => exact ⟨rfl, hpos, Nat.zero_le n, rfl⟩
      · trivial
    | obtain count => trivial

/-- The frame in a slot that the reader has obtained is the one written there. -/
lemma frame_eq (hj : j < s.reader.obtained) :
    s.written[s.output.length + j]? =
      some (s.buffer (s.reader.slice.slot (s.reader.taken + j))) := by
  have hstock := h.stock
  rw [h.readerSlice j hj]
  exact h.holds _ (by omega) (by omega)

/-- **The reader's store** releases frames that it has read. -/
theorem consumeFrames (hcount : count ≤ s.reader.obtained)
    (isArmed : Bool) : Inv c { s with
      throttleFront := c.sum s.reader.localFront (ofNat count)
      reader := { s.reader with
        localFront := c.sum s.reader.localFront (ofNat count)
        isArmed := isArmed
        obtained := s.reader.obtained - count
        totalReleased := s.reader.totalReleased + UInt64.ofNat count
        taken := s.reader.taken + count
        pc := .idle }
      output := s.output ++ (s.written.drop s.output.length).take count } := by
  have hroom := h.room
  have hstock := h.stock
  have hlen : (s.output ++ (s.written.drop s.output.length).take count).length =
      s.output.length + count := by
    simp only [length_append, length_take, length_drop]
    omega
  have hfront : c.sum s.reader.localFront (ofNat count) =
      c.index (s.output.length + count) := by
    rw [h.localFront, c.sum_index _ (by omega)]
  refine
    { rear := h.rear, localRear := h.localRear, front := ?_, localFront := ?_,
      running := h.running, effective := h.effective, room := ?_, stock := ?_, holds := ?_,
      output := ?_, seen := h.seen, lost := h.lost, writerSlice := h.writerSlice,
      readerSlice := ?_, writerPc := h.writerPc, readerPc := trivial } <;> dsimp only
  · rw [hlen, hfront]
  · rw [hlen, hfront]
  · omega
  · omega
  · exact h.holds.mono (by omega) le_rfl
  · rw [hlen, take_add, ← h.output]
  · intro j hj
    rw [hlen, add_assoc, h.readerSlice (count + j) (by omega), add_assoc]

/-- The load of the reader's `obtain` gives the frames that there are, or it goes on to wait. -/
lemma readerStep_loading {call : ReadCall}
    (hpc : s.reader.pc = .loading call loop) (result : WaitResult) :
    readerStep c s result = { s with
      isShutdown := false
      reader := (s.reader.finishObtain c call s.writerRear
        ⟨.ok (ofNat (s.written.length - s.output.length)), 0, false⟩ loop.err) } ∨
    (s.writerRear = s.reader.localFront ∧
      readerStep c s result = { s with reader := { s.reader with pc := .waiting call loop } }) := by
  simp only [readerStep, hpc, h.reader_diff]
  split
  · exact .inl rfl
  · next hwait =>
    exact .inr ⟨by_contra fun hne => hwait (.inr (.inl hne)), rfl⟩

lemma readerStep (result : WaitResult) : Inv c (readerStep c s result) := by
  have hstock := h.stock
  cases hpc : s.reader.pc with
  | idle => simpa [AudioUtils.readerStep, hpc] using h
  | loading call loop =>
    rcases h.readerStep_loading hpc result with heq | ⟨-, heq⟩ <;> rw [heq]
    · exact h.readerFinishObtain call loop.err
    · exact { h with readerPc := trivial }
  | waiting call loop =>
    simp only [AudioUtils.readerStep, hpc]
    exact { h with readerPc := trivial }
  | copying frames =>
    have hok := h.readerPc
    rw [hpc] at hok
    obtain ⟨htaken, hpos, hle, hframes⟩ := hok
    simp only [AudioUtils.readerStep, hpc]
    split
    · next hlt =>
      have hframe := h.frame_eq hlt
      rw [htaken, zero_add] at hframe
      refine { h with readerPc := ⟨htaken, hpos, ?_, ?_⟩ }
      · simp only [length_append, length_singleton]
        omega
      · rw [length_append, length_singleton, take_add_one, List.getElem?_drop, hframe, ← hframes]
        rfl
    · next hnot =>
      have hall : frames.length = s.reader.obtained := by omega
      refine { h with readerPc := ⟨hpos, le_rfl, fun fs hfs => ?_⟩ }
      cases hfs
      rw [← hall]
      exact hframes
  | releasing frames count =>
    have hok := h.readerPc
    rw [hpc] at hok
    simp only [AudioUtils.readerStep, hpc, h.reader_diff]
    exact { h with running := rfl, readerPc := hok }
  | storing frames count filled =>
    have hok := h.readerPc
    rw [hpc] at hok
    obtain ⟨hpos, hle, hframes⟩ := hok
    have hdata : released frames s.buffer s.reader.slice s.reader.taken count =
        (s.written.drop s.output.length).take count := by
      cases frames with
      | none =>
        refine (contents_eq hle h.readerSlice).trans ?_
        exact h.holds.get le_rfl (by omega)
      | some fs => rw [released, hframes fs rfl, take_take, Nat.min_self]
    simp only [AudioUtils.readerStep, hpc, hdata]
    exact h.consumeFrames hle _

lemma readerCall (op : ReaderOp)
    (hfits : ∀ count, op = .release count → count ≤ s.reader.obtained) :
    Inv c (readerCall s op) := by
  cases op with
  | read | obtain => exact { h with readerPc := trivial }
  | get j =>
    simp only [AudioUtils.readerCall]
    split
    · next hj =>
      have hframe := h.frame_eq (show j - s.reader.taken < s.reader.obtained by omega)
      rw [Nat.add_sub_cancel' hj.1] at hframe
      refine { h with seen := fun p x hx => ?_ }
      rcases mem_append.mp hx with hx | hx
      · exact h.seen p x hx
      · obtain ⟨rfl, rfl⟩ := Prod.mk.injEq .. ▸ mem_singleton.mp hx
        exact hframe
    · exact h
  | release count =>
    simp only [AudioUtils.readerCall]
    have hle := hfits count rfl
    split
    · exact h
    · next hne =>
      rw [if_neg (by omega)]
      exact { h with readerPc := ⟨by omega, hle, fun fs hfs => by cases hfs⟩ }
  | next result => exact h

end Inv

lemma inv_initial (c : Config) (buffer : Nat → F) (flush : Bool) :
    Inv c (c.initial buffer flush) where
  rear := c.index_zero.symm
  localRear := c.index_zero.symm
  front := c.index_zero.symm
  localFront := c.index_zero.symm
  running := rfl
  effective := le_rfl
  room := by simp [initial]
  stock := by simp [initial]
  holds j hj hj' := by simp [initial] at hj'
  output := rfl
  seen p x hx := by cases hx
  lost := rfl
  writerSlice j hj := by simp [initial] at hj
  readerSlice j hj := by simp [initial] at hj
  writerPc := trivial
  readerPc := trivial

/-! ## Runs -/

/-- A client releases no more than it has obtained. -/
def fits (s : State F) : Event F → Bool
  | .writer (.release count) =>
    match s.writer.pc with
    | .idle => count ≤ s.writer.obtained
    | _ => true
  | .reader (.release count) =>
    match s.reader.pc with
    | .idle => count ≤ s.reader.obtained
    | _ => true
  | _ => true

/-- The frames that the reader has released, and all that its client has looked at, are those that
the writer has released, in order; none is counted as lost. -/
structure Exact (s : State F) : Prop where
  output : s.output <+: s.written
  seen : ∀ p x, (p, x) ∈ s.seen → s.written[p]? = some x
  lost : s.reader.totalLost = 0
  running : s.isShutdown = false

/-- A load in `obtain` gives all there is, up to the requested count, or the call waits and there is
nothing. -/
def ObtainsAll (c : Config) (s : State F) (e : Event F) : Prop :=
  (∀ result call loop, e = .writer (.next result) → s.writer.pc = .loading call loop →
    let free := s.writer.effectiveFrames - (s.written.length - s.output.length)
    ((step c s e).writer.pc = .waiting call loop ∧ free = 0) ∨
      (step c s e).writer.obtained = min call.count free) ∧
  (∀ result call loop, e = .reader (.next result) → s.reader.pc = .loading call loop →
    let filled := s.written.length - s.output.length
    ((step c s e).reader.pc = .waiting call loop ∧ filled = 0) ∨
      (step c s e).reader.obtained = min call.count filled)

lemma Inv.exact (h : Inv c s) : Exact s where
  output := by
    rw [h.output]
    exact take_prefix _ _
  seen := h.seen
  lost := h.lost
  running := h.running

lemma Inv.step (h : Inv c s) (e : Event F) (hfits : fits s e) : Inv c (step c s e) := by
  cases e with
  | writer op =>
    cases op with
    | next result => exact h.writerStep result
    | _ =>
      simp only [AudioUtils.step]
      split
      · next hidle =>
        refine h.writerCall hidle _ fun count hop => ?_
        cases hop <;> simpa [fits, hidle] using hfits
      · exact h
  | reader op =>
    cases op with
    | next result => exact h.readerStep result
    | _ =>
      simp only [AudioUtils.step]
      split
      · next hidle =>
        refine h.readerCall _ fun count hop => ?_
        cases hop <;> simpa [fits, hidle] using hfits
      · exact h

/-- Equal indices mean that the fifo is empty. -/
lemma Inv.filled_eq_zero (h : Inv c s) (heq : s.writerRear = s.reader.localFront) :
    s.written.length - s.output.length = 0 := by
  have hdiff := h.reader_diff false
  have hself := c.diff_index s.output.length zero_le false
  rw [h.running, heq, h.localFront] at hdiff
  rw [Nat.add_zero, hdiff] at hself
  have hzero : UInt32.ofNat (s.written.length - s.output.length) = UInt32.ofNat 0 := by
    simpa using hself
  rw [← h.filled_toNat, hzero]
  rfl

lemma Inv.obtainsAll (h : Inv c s) (e : Event F) : ObtainsAll c s e := by
  constructor
  · rintro result call loop rfl hpc
    rcases h.writerStep_loading hpc result with heq | ⟨hfree, heq⟩
    · right
      simp only [AudioUtils.step, heq, Writer.finishObtain]
      split <;> omega
    · left
      simp only [AudioUtils.step, heq]
      exact ⟨trivial, hfree⟩
  · rintro result call loop rfl hpc
    rcases h.readerStep_loading hpc result with heq | ⟨hempty, heq⟩
    · right
      simp only [AudioUtils.step, heq, Reader.finishObtain, h.filled_toNat]
      split <;> omega
    · left
      simp only [AudioUtils.step, heq]
      exact ⟨trivial, h.filled_eq_zero hempty⟩

/-- **The fifo is exact.**  For every frame count, every contents of the buffer and every
interleaving of the steps of one writer and one throttling reader, whose clients release no more
than they have obtained, the frames read are in every state the first of the frames written, and
every `obtain` gives all that is there when it loads the other side's index. -/
theorem fifo_exact (c : Config) (buffer : Nat → F) (flush : Bool) (run : List (Event F))
    (hfits : EachStep (fun s e => fits s e = true) (step c) (c.initial buffer flush) run) :
    Throughout Exact (step c) (c.initial buffer flush) run ∧
      EachStep (ObtainsAll c) (step c) (c.initial buffer flush) run := by
  have hstep : ∀ (s : State F) e, Inv c s → fits s e → Inv c (step c s e) :=
    fun s e h hfit => h.step e hfit
  have hinit := inv_initial c buffer flush
  constructor
  · exact (throughout_of_inv hstep run _ hinit hfits).mono fun _ h => h.exact
  · exact eachStep_of_inv hstep (fun _ e h _ => h.obtainsAll e) run _ hinit hfits

/-- A call of the writer with its steps. -/
def writerSteps (op : WriterOp Nat) (n : Nat) : List (Event Nat) :=
  (op :: List.replicate n (.next .woken)).map .writer

/-- A call of the reader with its steps. -/
def readerSteps (op : ReaderOp) (n : Nat) : List (Event Nat) :=
  (op :: List.replicate n (.next .woken)).map .reader

/-- The frames of a fifo of three slots wrap around: two are written and one of them is read, then a
slice of two is filled and released in two parts. -/
def sampleRun : List (Event Nat) :=
  [writerSteps (.write [10, 11] .null) 6, readerSteps (.read 1 .forever) 5,
    writerSteps (.obtain 5 .null) 1, writerSteps (.put 1 13) 0, writerSteps (.put 0 12) 0,
    writerSteps (.release 1) 2, writerSteps (.release 1) 0, readerSteps (.obtain 2 .null) 1,
    readerSteps (.get 1) 0, [.writer (.next .woken), .writer (.next .woken)],
    readerSteps (.release 2) 2].flatten

def sampleConfig : Config := ⟨3, by decide, by decide⟩

theorem fifo_exact_sampleRun :
    Throughout Exact (step sampleConfig) (sampleConfig.initial (fun _ => 0) false) sampleRun ∧
      EachStep (ObtainsAll sampleConfig) (step sampleConfig)
        (sampleConfig.initial (fun _ => 0) false) sampleRun :=
  fifo_exact sampleConfig (fun _ => 0) false sampleRun (by decide +kernel)

example : (sampleRun.foldl (step sampleConfig)
    (sampleConfig.initial (fun _ => 0) false)).output = [10, 11, 12] := by
  decide +kernel

end AudioUtils
