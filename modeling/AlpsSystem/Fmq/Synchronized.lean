import AlpsSystem.Fmq.Unsynchronized

/-!
# The synchronized queue is a FIFO

With one writer and one reader that share both counters, the writer waits for room
and the reader for messages, so nothing is ever overwritten.

* `synchronized_fifo` — the messages read are a prefix of the messages written, and
  the rest is what a read of everything available would deliver.
-/

namespace Fmq

open Runs (foldSteps_inv eachStep_of_final)

open List

variable {T : Type} {d : Descriptor} {s : State Unit T}

/-- The queue of one writer and one reader that share both counters. -/
def synchronized (d : Descriptor) : Queue Unit :=
  { desc := d, flavor := .kSynchronizedReadWrite, peer := () }

/-- The reader is at most a turn behind, what the writer has begun to write still fits,
and the reader has received the first messages of the stream. -/
structure SyncOk (d : Descriptor) (s : State Unit T) : Prop extends
    QueueOk (synchronized d) s where
  room : s.written.length + s.writer.count ≤ (s.readers ()).pos + d.getQuantumCount
  received : (s.readers ()).received = s.written.take (s.readers ()).pos

section

variable (h : SyncOk d s)

include h

lemma SyncOk.writerOk : WriterOk d s := h.writer

lemma SyncOk.readerOk :
    ReaderOk d s.written (s.readers ()) := h.reader ()

/-- The reader is never a whole word behind. -/
lemma SyncOk.lag : (s.written.length - (s.readers ()).pos) * d.quantum < wordSize := by
  have hle : s.written.length - (s.readers ()).pos ≤ d.getQuantumCount := by
    have := h.room
    omega
  calc (s.written.length - (s.readers ()).pos) * d.quantum
      ≤ d.getQuantumCount * d.quantum := Nat.mul_le_mul_right _ hle
    _ = d.size := d.count_mul
    _ < wordSize := d.size_lt

omit h in
/-- The messages a side has copied are at most those it has begun. -/
theorem WriterOk.inflight_le {ι : Type} {s : State ι T} (h : WriterOk d s) :
    s.writer.inflight.length ≤ s.writer.count := by
  cases hp : s.writer with
  | idle => exact le_rfl
  | begun => exact zero_le
  | copied n tx data => exact le_of_eq (h.data n tx data hp)

/-- No call of a synchronized queue is disturbed. -/
lemma SyncOk.quiet (e : Event Unit T) : Quiet (synchronized d) s e := by
  cases e with
  | beginWrite | copyTo | commitWrite => trivial
  | beginRead | commitRead => exact h.lag
  | copyFrom i =>
    rintro ⟨_, _, hlt⟩
    have hroom := h.room
    have hin := h.writer.inflight_le
    change (s.readers ()).pos + d.getQuantumCount < _ at hlt
    omega

/-- There is room for what `beginWrite` grants. -/
lemma room_of_beginWrite {n : Nat} {tx : MemTransaction}
    (hb : beginWrite d .kSynchronizedReadWrite s.writePtr (s.readers ()).readPtr n = some tx) :
    s.written.length + n ≤ (s.readers ()).pos + d.getQuantumCount := by
  have hle := h.readerOk.le
  have hroom := h.room
  obtain ⟨_, _, havail⟩ := beginWrite_some hb
  have hn := havail rfl
  unfold availableToWrite availableToWriteBytes availableToReadBytes at hn
  rw [subWord_tracks h.writerOk.ptr h.readerOk.ptr hle h.lag] at hn
  -- the free bytes are the ring size less the distance of the two sides
  have hfree : subWord d.size ((s.written.length - (s.readers ()).pos) * d.quantum) =
      (d.getQuantumCount - (s.written.length - (s.readers ()).pos)) * d.quantum := by
    have hdist : (s.written.length - (s.readers ()).pos) * d.quantum ≤ d.size := by
      rw [← d.count_mul]
      exact Nat.mul_le_mul_right _ (by omega)
    unfold subWord
    rw [show d.size + wordSize - (s.written.length - (s.readers ()).pos) * d.quantum =
      d.size - (s.written.length - (s.readers ()).pos) * d.quantum + wordSize by omega,
      Nat.add_mod_right, Nat.mod_eq_of_lt (lt_of_le_of_lt (Nat.sub_le _ _) d.size_lt),
      ← d.count_mul, ← Nat.sub_mul]
  rw [hfree, Nat.mul_div_cancel _ d.quantum_pos] at hn
  omega

/-- The reader of a synchronized queue never finds its messages overwritten. -/
lemma SyncOk.not_overflow : ¬ d.size < subWord s.writePtr (s.readers ()).readPtr := by
  rw [overflow_iff h.readerOk h.writerOk.ptr h.lag]
  have := h.room
  omega

lemma start_history (n : Nat) :
    ((s.readers ()).start (synchronized d) s.writePtr s.written.length n).pos = (s.readers ()).pos ∧
      ((s.readers ()).start (synchronized d) s.writePtr s.written.length n).reads =
        (s.readers ()).reads := by
  have hno : ¬ (synchronized d).desc.size < subWord s.writePtr (s.readers ()).readPtr :=
    h.not_overflow
  by_cases hs : subWord s.writePtr (s.readers ()).readPtr < mulWord n (synchronized d).desc.quantum
  · rw [start_of_short hno hs]
    exact ⟨rfl, rfl⟩
  · rw [start_of_room hno hs]
    exact ⟨rfl, rfl⟩

end

open Reader

lemma copy_history {ι : Type} (q : Queue ι) (ring : Nat → T) (r : Reader T) (n : Nat)
    (tx : MemTransaction) :
    (r.copy q ring n tx).pos = r.pos ∧ (r.copy q ring n tx).reads = r.reads := by
  unfold copy
  split
  · split <;> exact ⟨rfl, rfl⟩
  · exact ⟨rfl, rfl⟩

/-- What the two sides have agreed on. -/
def Agreed (d : Descriptor) (s : State Unit T) : Prop :=
  s.written.length + s.writer.count ≤ (s.readers ()).pos + d.getQuantumCount ∧
    (s.readers ()).received = s.written.take (s.readers ()).pos

open State

/-- A change to the reader that keeps its history keeps that. -/
lemma SyncOk.keeps (h : SyncOk d s) {r : Reader T}
    (hpos : r.pos = (s.readers ()).pos) (hreads : r.reads = (s.readers ()).reads) :
    Agreed d (s.setReader () r) := by
  have hr : (s.setReader () r).readers () = r := by simp [setReader]
  have hrec : r.received = (s.readers ()).received := by
    unfold Reader.received
    rw [hreads]
  rw [Agreed, hr, hpos, hrec]
  exact ⟨h.room, h.received⟩

/-- The distance and the history after a call. -/
lemma step_history (h : SyncOk d s) (e : Event Unit T) : Agreed d (s.step (synchronized d) e) := by
  have hroom := h.room
  have hle := h.readerOk.le
  cases e with
  | beginWrite n =>
    unfold step
    dsimp only
    split
    · exact ⟨h.room, h.received⟩
    · split
      · rename_i tx hb
        exact ⟨room_of_beginWrite h hb, h.received⟩
      · exact ⟨Nat.le_trans (Nat.add_le_add_left zero_le _) h.room, h.received⟩
  | copyTo data =>
    have hcopy : ∀ n tx, s.writer.count = n →
        Agreed d (s.writerCopy (synchronized d) n tx data) := by
      intro n tx hn
      unfold writerCopy
      split
      · split
        · exact ⟨hn ▸ h.room, h.received⟩
        · exact ⟨h.room, h.received⟩
      · exact ⟨h.room, h.received⟩
    unfold step
    dsimp only
    split
    · exact ⟨h.room, h.received⟩
    · rename_i n tx hp
      exact hcopy n tx (by rw [hp]; rfl)
    · rename_i n tx _ hp
      exact hcopy n tx (by rw [hp]; rfl)
  | commitWrite =>
    unfold step
    dsimp only
    split
    · rename_i n tx data hp
      have hlen := h.writerOk.data n tx data hp
      rw [hp] at hroom
      refine ⟨?_, ?_⟩
      · simp only [length_append, hlen] at hroom ⊢
        exact hroom
      · rw [take_append_of_le_length hle]
        exact h.received
    · exact ⟨h.room, h.received⟩
  | beginRead i n => exact h.keeps (start_history h _).1 (start_history h _).2
  | copyFrom i =>
    unfold step
    dsimp only
    split
    · exact ⟨h.room, h.received⟩
    · exact h.keeps (copy_history _ _ _ _ _).1 (copy_history _ _ _ _ _).2
    · exact h.keeps (copy_history _ _ _ _ _).1 (copy_history _ _ _ _ _).2
  | commitRead i =>
    unfold step
    dsimp only
    split
    · rename_i n tx data hp
      obtain ⟨h1, h2, h3, h4, h5⟩ : PhaseOk d s.written (s.readers ()) (.copied n tx data) := by
        have := h.readerOk.phase
        rwa [hp] at this
      have hdata := h5 (by omega)
      rw [commit_of_good (q := synchronized d) n data h.not_overflow]
      simp only [Agreed, setReader, Function.update_self, received, map_append,
        map_cons, map_nil, flatten_append, flatten_cons, flatten_nil,
        append_nil]
      refine ⟨by omega, ?_⟩
      have hrec := h.received
      unfold received at hrec
      rw [hrec, hdata, take_add]
    · exact ⟨h.room, h.received⟩

/-- **Every call of a synchronized queue keeps its invariant.** -/
theorem step_sync (h : SyncOk d s) (e : Event Unit T)
    (hc : Counted d (s.step (synchronized d) e).written.length) :
    SyncOk d (s.step (synchronized d) e) :=
  ⟨step_ok h.toQueueOk e hc (h.quiet e), (step_history h e).1, (step_history h e).2⟩

lemma run_sync (d : Descriptor) (ring : Nat → T) (events : List (Event Unit T))
    (hcount : Counted d (run (synchronized d) ring events).written.length) :
    SyncOk d (run (synchronized d) ring events) := by
  have hback : ∀ (s : State Unit T) (e : Event Unit T),
      Counted d (s.step (synchronized d) e).written.length → Counted d s.written.length :=
    fun s e h => h.mono (written_step _ s e)
  obtain ⟨_, hcounts⟩ :=
    eachStep_of_final (P := fun s : State Unit T => Counted d s.written.length) hback events _
      hcount
  have hinit : SyncOk d ({ ring } : State Unit T) :=
    ⟨initial_ok _ ring, zero_le, rfl⟩
  have hstep : ∀ (s : State Unit T) (e : Event Unit T), SyncOk d s →
      Counted d (s.step (synchronized d) e).written.length → SyncOk d (s.step (synchronized d) e) :=
    fun s e hs hok => step_sync hs e hok
  exact foldSteps_inv hstep events _ hinit hcounts

/-- **The synchronized queue is a FIFO.** After every interleaving of the calls of one
writer and one reader, the messages of the committed reads are a prefix of those of the
committed writes, and the messages written and not yet read are exactly what a copy of
everything available from the read counter on delivers. -/
theorem synchronized_fifo (d : Descriptor) (ring : Nat → T) (events : List (Event Unit T))
    (hcount : (run (synchronized d) ring events).written.length * d.quantum < wordSize ∨
      d.size ∣ wordSize) :
    let s := run (synchronized d) ring events
    let n := availableToRead d s.writePtr (s.readers ()).readPtr
    (s.readers ()).received <+: s.written ∧
      ∃ rest, copyFrom d s.ring (transaction d (s.readers ()).readPtr n) 0 n = some rest ∧
        s.written = (s.readers ()).received ++ rest := by
  have h := run_sync d ring events hcount
  generalize run (synchronized d) ring events = s at h hcount
  have hroom := h.room
  have hle := h.readerOk.le
  have hin := h.writerOk.inflight_le
  have havail : availableToRead d s.writePtr (s.readers ()).readPtr =
      s.written.length - (s.readers ()).pos := by
    unfold availableToRead availableToReadBytes
    rw [subWord_tracks h.writerOk.ptr h.readerOk.ptr hle h.lag, Nat.mul_div_cancel _ d.quantum_pos]
  have hget : Ring.get (slots d s.ring) d.getQuantumCount (s.readers ()).pos
      (s.written.length - (s.readers ()).pos) = _ :=
    h.writerOk.committed.get (by omega) (by omega)
  have hall : (s.written.drop (s.readers ()).pos).take (s.written.length - (s.readers ()).pos) =
      s.written.drop (s.readers ()).pos := take_of_length_le (by simp)
  simp only [havail]
  refine ⟨?_, _, copyFrom_transaction s.ring
    ⟨h.readerOk.ptr, Counted.mono hcount hle⟩ (by omega), ?_⟩
  · rw [h.received]
    exact take_prefix _ _
  · rw [hget, hall, h.received, take_append_drop]

theorem synchronized_fifo_sampleRead :
    let s := run (synchronized sampleDescriptor) (fun _ => 0) sampleRead
    let n := availableToRead sampleDescriptor s.writePtr (s.readers ()).readPtr
    (s.readers ()).received <+: s.written ∧ ∃ rest, copyFrom sampleDescriptor s.ring
          (transaction sampleDescriptor (s.readers ()).readPtr n) 0 n = some rest ∧
        s.written = (s.readers ()).received ++ rest :=
  synchronized_fifo sampleDescriptor (fun _ => 0) sampleRead (by decide)

/-- **The flow control is exact.** In every state of a synchronized queue the available messages are
those committed and not yet read, and a call begins exactly if it asks for no more than these, or
for no more than the rest of the ring.  The size of a read is computed in a word. -/
theorem synchronized_flow_control (d : Descriptor) (ring : Nat → T) (events : List (Event Unit T))
    (hcount : Counted d (run (synchronized d) ring events).written.length) :
    let s := run (synchronized d) ring events
    let r := (s.readers ()).readPtr
    let unread := s.written.length - (s.readers ()).received.length
    availableToRead d s.writePtr r = unread ∧
    availableToWrite d s.writePtr r + unread = d.getQuantumCount ∧
    ∀ n, ((beginRead d s.writePtr r n).1.isSome ↔ mulWord n d.quantum ≤ unread * d.quantum) ∧
      ((beginWrite d .kSynchronizedReadWrite s.writePtr r n).isSome ↔
        n + unread ≤ d.getQuantumCount) := by
  have h := run_sync d ring events hcount
  generalize run (synchronized d) ring events = s at h
  have hroom := h.room
  have hle := h.readerOk.le
  have hpos : (s.readers ()).received.length = (s.readers ()).pos := by simp [h.received, hle]
  have hread := subWord_tracks h.writerOk.ptr h.readerOk.ptr hle h.lag
  have hno := h.not_overflow
  simp only [hpos, availableToRead, availableToWrite, availableToWriteBytes, availableToReadBytes,
    beginRead, beginWrite, hread] at hno ⊢
  have hunread : s.written.length - (s.readers ()).pos ≤ d.getQuantumCount := by omega
  have hlag := h.lag
  generalize s.written.length - (s.readers ()).pos = unread at *
  -- the free bytes, as the distance of a reader that is as far behind
  have hfree : subWord d.size (unread * d.quantum) = (d.getQuantumCount - unread) * d.quantum :=
    subWord_tracks (by rw [d.count_mul, Nat.mod_eq_of_lt d.size_lt])
      (Nat.mod_eq_of_lt hlag).symm hunread
      ((Nat.mul_le_mul_right _ (Nat.sub_le _ _)).trans_lt (by rw [d.count_mul]; exact d.size_lt))
  rw [hfree, Nat.mul_div_cancel _ d.quantum_pos, Nat.mul_div_cancel _ d.quantum_pos]
  refine ⟨rfl, by omega, fun n => ⟨?_, ?_⟩⟩
  · rw [if_neg hno]
    split_ifs with hshort <;> simp <;> omega
  · split_ifs with hfull <;> simp at hfull ⊢ <;> omega

theorem synchronized_flow_control_sampleRead :
    let s := run (synchronized sampleDescriptor) (fun _ => 0) sampleRead
    Counted sampleDescriptor s.written.length ∧
      availableToRead sampleDescriptor s.writePtr (s.readers ()).readPtr =
        s.written.length - (s.readers ()).received.length := by
  have hcount : Counted sampleDescriptor
      (run (synchronized sampleDescriptor) (fun _ => 0) sampleRead).written.length :=
    .inl (by decide)
  exact ⟨hcount, (synchronized_flow_control _ _ _ hcount).1⟩

end Fmq
