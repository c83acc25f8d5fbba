import AlpsSystem.Fmq.Transactions

/-!
# Invariants of the fast message queue

What holds in every state of every interleaving, for either flavor.  The ring holds
the last messages of the committed stream followed by the batch the writer has
copied but not committed; a reader's copy is good unless such a batch was
overwriting the messages it read.
-/

namespace Fmq

open List

variable {ι T : Type} {q : Queue ι} {d : Descriptor} {n : Nat} {s : State ι T} {tx : MemTransaction}

/-- The counter of a stream of this length still gives the ring offset. -/
def Counted (d : Descriptor) (length : Nat) : Prop :=
  length * d.quantum < wordSize ∨ d.size ∣ wordSize

lemma Counted.mono {m : Nat} (h : Counted d n) (hle : m ≤ n) : Counted d m :=
  h.imp (Nat.lt_of_le_of_lt (Nat.mul_le_mul_right _ hle)) id

/-- The number of messages a side has begun to transfer. -/
def Phase.count : Phase T → Nat
  | .idle => 0
  | .begun n _ => n
  | .copied n _ _ => n

/-- The writer's side: its counter, its transaction, and the ring, which holds the last
turn of the stream with the uncommitted batch at its end. -/
structure WriterOk (d : Descriptor) (s : State ι T) : Prop where
  ptr : s.writePtr = s.written.length * d.quantum % wordSize
  count : s.writer.count ≤ d.getQuantumCount
  tx : ∀ n tx, s.writer = .begun n tx ∨ (∃ data, s.writer = .copied n tx data) →
    tx = transaction d s.writePtr n
  data : ∀ n tx data, s.writer = .copied n tx data → data.length = n
  ring : Ring.Holds (slots d s.ring) d.getQuantumCount (s.written ++ s.writer.inflight)
    (s.written.length + s.writer.inflight.length - d.getQuantumCount)
    (s.written.length + s.writer.inflight.length)

/-- What a reader in the middle of a read knows of the committed stream. -/
def PhaseOk (d : Descriptor) (written : List T) (r : Reader T) : Phase T → Prop
  | .idle => True
  | .begun n tx => n * d.quantum < wordSize →
      r.pos + n ≤ written.length ∧ n ≤ d.getQuantumCount ∧ tx = transaction d r.readPtr n
  | .copied n tx data =>
      r.pos + n ≤ written.length ∧ n ≤ d.getQuantumCount ∧ tx = transaction d r.readPtr n ∧
        data.length = n ∧
        (written.length ≤ r.pos + d.getQuantumCount → data = (written.drop r.pos).take n)

/-- A reader's side: its counter, its phase, and that its committed reads are the
messages at their positions. -/
structure ReaderOk (d : Descriptor) (written : List T) (r : Reader T) : Prop where
  ptr : r.readPtr = r.pos * d.quantum % wordSize
  le : r.pos ≤ written.length
  phase : PhaseOk d written r r.phase
  reads : ∀ e ∈ r.reads, e.1 + e.2.length ≤ written.length ∧
    e.2 = (written.drop e.1).take e.2.length

/-- The slice of a stream that has grown. -/
lemma slice_append (written more : List T) {p : Nat} (h : p + n ≤ written.length) :
    ((written ++ more).drop p).take n = (written.drop p).take n := by
  rw [drop_append_of_le_length (by omega), take_append_of_le_length]
  rw [length_drop]
  omega

/-- A reader does not notice that the stream grows. -/
lemma ReaderOk.append {written : List T} {r : Reader T} (h : ReaderOk d written r)
    (more : List T) : ReaderOk d (written ++ more) r := by
  have hlen : written.length ≤ (written ++ more).length := by simp
  refine ⟨h.ptr, h.le.trans hlen, ?_, ?_⟩
  · have hphase := h.phase
    cases hp : r.phase with
    | idle => trivial
    | begun n tx =>
      rw [hp] at hphase
      intro hn
      obtain ⟨h1, h2⟩ := hphase hn
      exact ⟨h1.trans hlen, h2⟩
    | copied n tx data =>
      rw [hp] at hphase
      obtain ⟨h1, h2, h3, h4, h5⟩ := hphase
      refine ⟨h1.trans hlen, h2, h3, h4, fun hle => ?_⟩
      rw [slice_append written more h1]
      exact h5 (hlen.trans hle)
  · intro e he
    obtain ⟨h1, h2⟩ := h.reads e he
    refine ⟨h1.trans hlen, ?_⟩
    rw [slice_append written more h1]
    exact h2

/-- The writer has copied an uncommitted batch over messages that reader `i` is about
to copy and that no committed write has overwritten yet. -/
def Overwriting (q : Queue ι) (s : State ι T) (i : ι) : Prop :=
  0 < (s.readers i).phase.count ∧ s.written.length ≤ (s.readers i).pos + q.desc.getQuantumCount ∧
    (s.readers i).pos + q.desc.getQuantumCount < s.written.length + s.writer.inflight.length

/-- The condition on a call: a reader's counter is not a whole word behind when it is
compared, and a reader does not copy what the writer is overwriting. -/
def Quiet (q : Queue ι) (s : State ι T) : Event ι T → Prop
  | .beginRead i _ => (s.written.length - (s.readers i).pos) * q.desc.quantum < wordSize
  | .commitRead i => (s.written.length - (s.readers i).pos) * q.desc.quantum < wordSize
  | .copyFrom i => ¬ Overwriting q s i
  | _ => True

instance (q : Queue ι) (s : State ι T) (i : ι) : Decidable (Overwriting q s i) :=
  inferInstanceAs (Decidable (_ ∧ _ ∧ _))

instance (q : Queue ι) (s : State ι T) (e : Event ι T) : Decidable (Quiet q s e) := by
  cases e <;> unfold Quiet <;> infer_instance

/-! ## Reader calls -/

section Reader

variable {written : List T} {r : Reader T} {w : Nat}

/-- The overflow test compares positions. -/
lemma overflow_iff (hr : ReaderOk d written r) (hw : w = written.length * d.quantum % wordSize)
    (hlag : (written.length - r.pos) * d.quantum < wordSize) :
    d.size < subWord w r.readPtr ↔ r.pos + d.getQuantumCount < written.length := by
  rw [subWord_tracks hw hr.ptr hr.le hlag, ← d.count_mul, Nat.mul_lt_mul_right d.quantum_pos]
  have := hr.le
  omega

variable {n : Nat}

open Reader

lemma start_of_short (h : ¬ q.desc.size < subWord w r.readPtr)
    (h' : subWord w r.readPtr < mulWord n q.desc.quantum) :
    r.start q w written.length n = { r with phase := .idle } := by
  unfold start beginRead
  rw [if_neg h, if_pos h', if_neg h]
  rfl

lemma start_of_room (h : ¬ q.desc.size < subWord w r.readPtr)
    (h' : ¬ subWord w r.readPtr < mulWord n q.desc.quantum) :
    r.start q w written.length n =
      { r with phase := .begun n (transaction q.desc r.readPtr n) } := by
  unfold start beginRead
  rw [if_neg h, if_neg h', if_neg h]
  rfl

lemma start_ok (hr : ReaderOk q.desc written r)
    (hw : w = written.length * q.desc.quantum % wordSize)
    (hlag : (written.length - r.pos) * q.desc.quantum < wordSize) (n : Nat) :
    ReaderOk q.desc written (r.start q w written.length n) := by
  by_cases hover : q.desc.size < subWord w r.readPtr
  · unfold start beginRead
    rw [if_pos hover, if_pos hover]
    exact ⟨hw, le_rfl, trivial, hr.reads⟩
  by_cases hshort : subWord w r.readPtr < mulWord n q.desc.quantum
  · rw [start_of_short hover hshort]
    exact ⟨hr.ptr, hr.le, trivial, hr.reads⟩
  rw [start_of_room hover hshort]
  rw [overflow_iff hr hw hlag] at hover
  refine ⟨hr.ptr, hr.le, ?_, hr.reads⟩
  intro hn
  unfold mulWord at hshort
  rw [subWord_tracks hw hr.ptr hr.le hlag, Nat.mod_eq_of_lt hn,
    Nat.mul_lt_mul_right q.desc.quantum_pos] at hshort
  have hle := hr.le
  refine ⟨?_, by omega, rfl⟩
  change r.pos + n ≤ written.length
  omega

lemma commit_of_good (n : Nat) (data : List T) (h : ¬ q.desc.size < subWord w r.readPtr) :
    r.commit q w written.length n data =
      { readPtr := addWord r.readPtr (mulWord n q.desc.quantum)
        phase := .idle
        pos := r.pos + n
        reads := r.reads ++ [(r.pos, data)] } := by
  unfold commit commitRead
  rw [if_neg h]
  rfl

lemma commit_ok (hr : ReaderOk q.desc written r)
    (hw : w = written.length * q.desc.quantum % wordSize)
    (hlag : (written.length - r.pos) * q.desc.quantum < wordSize)
    {data : List T} (hp : r.phase = .copied n tx data) :
    ReaderOk q.desc written (r.commit q w written.length n data) := by
  have hphase := hr.phase
  rw [hp] at hphase
  obtain ⟨h1, h2, h3, h4, h5⟩ := hphase
  by_cases hover : q.desc.size < subWord w r.readPtr
  · unfold commit commitRead
    rw [if_pos hover]
    exact ⟨hw, le_rfl, trivial, hr.reads⟩
  · rw [commit_of_good n data hover]
    rw [overflow_iff hr hw hlag] at hover
    refine ⟨addWord_tracks hr.ptr, h1, trivial, ?_⟩
    intro e he
    rcases mem_append.mp he with he | he
    · exact hr.reads e he
    · rw [mem_singleton] at he
      subst he
      rw [h4]
      exact ⟨h1, h5 (by omega)⟩

end Reader

/-- The part of the ring that belongs to the committed stream. -/
lemma WriterOk.committed (h : WriterOk d s) :
    Ring.Holds (slots d s.ring) d.getQuantumCount s.written
      (s.written.length + s.writer.inflight.length - d.getQuantumCount) s.written.length := by
  intro j hj hj'
  rw [← h.ring j hj (by omega), List.getElem?_append_left hj']

/-- A copy that no uncommitted batch disturbs delivers the messages at the reader's
position, unless committed writes have already overwritten them. -/
lemma copy_ok {i : ι} (hw : WriterOk q.desc s)
    (hr : ReaderOk q.desc s.written (s.readers i)) (hc : Counted q.desc s.written.length)
    (hquiet : ¬ Overwriting q s i)
    (hp : (s.readers i).phase = .begun n tx ∨ ∃ data, (s.readers i).phase = .copied n tx data) :
    ReaderOk q.desc s.written ((s.readers i).copy q s.ring n tx) := by
  unfold Reader.copy
  split
  · rename_i hn
    have hphase := hr.phase
    have hfacts : (s.readers i).pos + n ≤ s.written.length ∧ n ≤ q.desc.getQuantumCount ∧
        tx = transaction q.desc (s.readers i).readPtr n := by
      rcases hp with hp | ⟨data, hp⟩
      · rw [hp] at hphase
        exact hphase hn
      · rw [hp] at hphase
        exact ⟨hphase.1, hphase.2.1, hphase.2.2.1⟩
    have hcount : (s.readers i).phase.count = n := by
      rcases hp with hp | ⟨data, hp⟩ <;> rw [hp] <;> rfl
    obtain ⟨hle, hcap, rfl⟩ := hfacts
    rw [copyFrom_transaction s.ring ⟨hr.ptr, hc.mono hr.le⟩ hcap]
    refine ⟨hr.ptr, hr.le, ⟨hle, hcap, rfl, by simp, ?_⟩, hr.reads⟩
    intro hfresh
    change s.written.length ≤ (s.readers i).pos + q.desc.getQuantumCount at hfresh
    by_cases hz : n = 0
    · subst hz
      simp [Ring.get]
    · refine hw.committed.get ?_ hle
      unfold Overwriting at hquiet
      rw [hcount] at hquiet
      omega
  · exact hr

/-! ## Writer calls -/

lemma beginWrite_some {flavor : MQFlavor} {w r : Nat} (h : beginWrite d flavor w r n = some tx) :
    n ≤ d.getQuantumCount ∧ tx = transaction d w n ∧
      (flavor = .kSynchronizedReadWrite → n ≤ availableToWrite d w r) := by
  unfold beginWrite at h
  split at h
  · cases h
  · rename_i hno
    rw [not_or, not_and] at hno
    exact ⟨not_lt.mp hno.2, (Option.some.inj h).symm, fun hf => not_lt.mp (hno.1 hf)⟩

/-- A `begin` of a writer that has no uncommitted batch. -/
lemma WriterOk.begin (h : WriterOk d s) (hidle : s.writer.inflight = [])
    {phase : Phase T} (hphase : phase = .idle ∨
      ∃ n, phase = .begun n (transaction d s.writePtr n) ∧ n ≤ d.getQuantumCount) :
    WriterOk d { s with writer := phase } := by
  have hring := h.ring
  rw [hidle] at hring
  rcases hphase with rfl | ⟨n, rfl, hn⟩
  · refine ⟨h.ptr, zero_le, ?_, ?_, hring⟩
    · rintro n tx (hb | ⟨_, hb⟩) <;> cases hb
    · intro n tx data hb
      cases hb
  · refine ⟨h.ptr, hn, ?_, ?_, hring⟩
    · rintro n tx (hb | ⟨_, hb⟩)
      · cases hb
        rfl
      · cases hb
    · intro n tx data hb
      cases hb

open State

/-- The writer's copy replaces what it had copied before. -/
lemma writerCopy_ok (data : List T) (h : WriterOk q.desc s) (hc : Counted q.desc s.written.length)
    (hp : s.writer = .begun n tx ∨ ∃ data, s.writer = .copied n tx data) :
    WriterOk q.desc (s.writerCopy q n tx data) ∧ (s.writerCopy q n tx data).written = s.written ∧
      (s.writerCopy q n tx data).readers = s.readers := by
  unfold writerCopy
  split
  · rename_i hlen
    obtain rfl := h.tx n tx hp
    have hcap : n ≤ q.desc.getQuantumCount := by
      have := h.count
      rcases hp with hp | ⟨_, hp⟩ <;> rwa [hp] at this
    have hold : s.writer.inflight.length ≤ n := by
      rcases hp with hp | ⟨data', hp⟩
      · rw [hp]
        exact zero_le
      · rw [hp]
        exact (h.data _ _ _ hp).le
    subst hlen
    obtain ⟨ring', hring, hslots⟩ :=
      copyTo_transaction s.ring data ⟨h.ptr, hc⟩ hcap
    have hput := h.committed.put data
      (show _ ≤ s.written.length + data.length - q.desc.getQuantumCount by omega) (by omega) hcap
    rw [hring]
    refine ⟨⟨h.ptr, hcap, ?_, ?_, hput.congr q.desc.count_pos hslots⟩, rfl, rfl⟩
    · rintro n' tx' (hb | ⟨_, hb⟩)
      · cases hb
      · cases hb
        rfl
    · intro n' tx' data' hb
      cases hb
      rfl
  · exact ⟨h, rfl, rfl⟩

/-- The invariants of all sides. -/
structure QueueOk (q : Queue ι) (s : State ι T) : Prop where
  writer : WriterOk q.desc s
  reader : ∀ i, ReaderOk q.desc s.written (s.readers i)

/-- An empty queue over arbitrary memory. -/
lemma initial_ok (q : Queue ι) (ring : Nat → T) : QueueOk q { ring } := by
  refine ⟨⟨?_, zero_le, ?_, ?_, ?_⟩, fun i => ⟨?_, zero_le, trivial, nofun⟩⟩
  · simp
  · rintro n tx (hb | ⟨_, hb⟩) <;> cases hb
  · intro n tx data hb
    cases hb
  · intro j _ hj
    simp [Phase.inflight] at hj
  · simp

variable [DecidableEq ι]

/-- Replacing a reader by one that is all right. -/
lemma QueueOk.setReader (h : QueueOk q s) (i : ι) {r : Reader T}
    (hr : ReaderOk q.desc s.written r) : QueueOk q (s.setReader i r) := by
  refine ⟨⟨h.writer.ptr, h.writer.count, h.writer.tx, h.writer.data, h.writer.ring⟩, ?_⟩
  intro j
  by_cases hj : j = i
  · subst hj
    simpa [State.setReader] using hr
  · simpa [State.setReader, hj] using h.reader j

/-- The committed stream only grows. -/
lemma written_step (q : Queue ι) (s : State ι T) (e : Event ι T) :
    s.written.length ≤ (s.step q e).written.length := by
  unfold step
  cases e with
  | beginWrite n =>
    cases s.writer with
    | copied => exact le_rfl
    | idle | begun => dsimp only; split <;> exact le_rfl
  | copyTo data =>
    cases s.writer with
    | idle => exact le_rfl
    | begun | copied => dsimp only [writerCopy]; split <;> (try split) <;> exact le_rfl
  | commitWrite => cases s.writer <;> simp
  | beginRead i n => exact le_rfl
  | copyFrom | commitRead => dsimp only; split <;> exact le_rfl

/-- **Every quiet call keeps the invariants.** -/
theorem step_ok (h : QueueOk q s) (e : Event ι T)
    (hc : Counted q.desc (s.step q e).written.length) (hquiet : Quiet q s e) :
    QueueOk q (s.step q e) := by
  have hc' : Counted q.desc s.written.length := hc.mono (written_step q s e)
  have hw := h.writer
  cases e with
  | beginWrite n =>
    unfold step
    dsimp only
    split
    · exact h
    · rename_i hnot
      have hidle : s.writer.inflight = [] := by
        cases hp : s.writer with
        | copied n tx data => exact absurd hp (hnot n tx data)
        | idle | begun => rfl
      split
      · rename_i tx hb
        obtain ⟨hcap, rfl, _⟩ := beginWrite_some hb
        exact ⟨hw.begin hidle (.inr ⟨_, rfl, hcap⟩), h.reader⟩
      · exact ⟨hw.begin hidle (.inl rfl), h.reader⟩
  | copyTo data =>
    unfold step
    cases hp : s.writer with
    | idle => exact h
    | begun n tx =>
      obtain ⟨hok, hwr, hrd⟩ := writerCopy_ok data hw hc' (.inl hp)
      exact ⟨hok, fun i => by rw [hwr, hrd]; exact h.reader i⟩
    | copied n tx data' =>
      obtain ⟨hok, hwr, hrd⟩ := writerCopy_ok data hw hc' (.inr ⟨_, hp⟩)
      exact ⟨hok, fun i => by rw [hwr, hrd]; exact h.reader i⟩
  | commitWrite =>
    unfold step
    cases hp : s.writer with
    | idle | begun => exact h
    | copied n tx data =>
      have hlen := hw.data n tx data hp
      have hring := hw.ring
      rw [hp] at hring
      refine ⟨⟨?_, zero_le, ?_, ?_, ?_⟩, fun i => (h.reader i).append data⟩
      · rw [length_append, hlen]
        exact addWord_tracks hw.ptr
      · rintro n tx (hb | ⟨_, hb⟩) <;> cases hb
      · intro n tx data hb
        cases hb
      · simpa [Phase.inflight] using hring
  | beginRead i n => exact h.setReader i (start_ok (h.reader i) hw.ptr hquiet n.toNat)
  | copyFrom i =>
    unfold step
    dsimp only
    split
    · exact h
    · rename_i n tx hp
      exact h.setReader i (copy_ok hw (h.reader i) hc' hquiet (.inl hp))
    · rename_i n tx data hp
      exact h.setReader i (copy_ok hw (h.reader i) hc' hquiet (.inr ⟨_, hp⟩))
  | commitRead i =>
    unfold step
    dsimp only
    split
    · rename_i n tx data hp
      exact h.setReader i (commit_ok (h.reader i) hw.ptr hquiet hp)
    · exact h

end Fmq
