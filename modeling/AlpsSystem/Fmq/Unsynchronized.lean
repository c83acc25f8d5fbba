import AlpsSystem.Fmq.Invariants

/-!
# Reads of an unsynchronized queue

The writer of an unsynchronized queue never waits, so it may overwrite messages a
slow reader still wants.  A reader notices that from the counters when it begins and
when it commits.

* `committed_reads_good` — a read that commits has delivered the messages at the
  position of its counter, when no copy falls between the writer's copy over these
  messages and its commit.
-/

namespace Fmq

open Runs (EachStep foldSteps_inv eachStep_of_final)

variable {ι T : Type} [DecidableEq ι]

/-- The queue of any number of readers whose writer never waits. -/
def unsynchronized (d : Descriptor) (peer : ι) : Queue ι :=
  { desc := d, flavor := .kUnsynchronizedWrite, peer := peer }

/-- The invariants along a run of quiet calls. -/
lemma run_ok (q : Queue ι) (ring : Nat → T) (events : List (Event ι T))
    (hcount : Counted q.desc (run q ring events).written.length)
    (hquiet : EachStep (Quiet q) (State.step q) { ring } events) :
    QueueOk q (run q ring events) := by
  have hback : ∀ (s : State ι T) (e : Event ι T), Counted q.desc (s.step q e).written.length →
      Counted q.desc s.written.length := fun s e h => h.mono (written_step q s e)
  obtain ⟨_, hcounts⟩ :=
    eachStep_of_final (P := fun s : State ι T => Counted q.desc s.written.length) hback events _
      hcount
  refine foldSteps_inv ?_ events _ (initial_ok q ring) (hcounts.and hquiet)
  intro s e hs hok
  exact step_ok hs e hok.1 hok.2

/-- **Committed reads are good.** In every interleaving of quiet calls, each read a
reader has committed delivered exactly the committed messages at its position, and the
reader's counter is the counter of its position. -/
theorem committed_reads_good (d : Descriptor) (peer : ι) (ring : Nat → T)
    (events : List (Event ι T))
    (hcount : (run (unsynchronized d peer) ring events).written.length * d.quantum < wordSize ∨
      d.size ∣ wordSize)
    (hquiet : EachStep (Quiet (unsynchronized d peer)) (State.step (unsynchronized d peer))
      { ring := ring } events) (i : ι) :
    let s := run (unsynchronized d peer) ring events
    (s.readers i).readPtr = (s.readers i).pos * d.quantum % wordSize ∧ ∀ read ∈ (s.readers i).reads,
        read.1 + read.2.length ≤ s.written.length ∧
          read.2 = (s.written.drop read.1).take read.2.length := by
  have h := (run_ok (unsynchronized d peer) ring events hcount hquiet).reader i
  exact ⟨h.ptr, h.reads⟩

/-- Two messages are written, and one is read. -/
def sampleRead : List (Event Unit Nat) :=
  [.beginWrite 2, .copyTo [1, 2], .commitWrite, .beginRead () 1, .copyFrom (), .commitRead ()]

theorem committed_reads_good_sampleRead :
    ((run (unsynchronized sampleDescriptor ()) (fun _ => 0) sampleRead).readers ()).reads =
        [(0, [1])] ∧
      ∀ read ∈
        ((run (unsynchronized sampleDescriptor ()) (fun _ => 0) sampleRead).readers ()).reads,
        read.1 + read.2.length ≤
            (run (unsynchronized sampleDescriptor ()) (fun _ => 0) sampleRead).written.length ∧
          read.2 = ((run (unsynchronized sampleDescriptor ()) (fun _ => 0)
            sampleRead).written.drop read.1).take read.2.length := by
  exact ⟨by decide, (committed_reads_good sampleDescriptor () (fun _ => 0) sampleRead
    (by decide) (by decide) ()).2⟩

/-- The reader has begun when the writer copies a third message over the first one; it
copies that message and commits before the writer does. -/
def disturbedRead : List (Event Unit Nat) :=
  [.beginWrite 2, .copyTo [1, 2], .commitWrite, .beginRead () 1,
   .beginWrite 1, .copyTo [9], .copyFrom (), .commitRead ()]

/-- **A write in progress is read as good.** The read commits, and what it delivered is a
message no write has committed. -/
theorem uncommitted_batch_read :
    (run (unsynchronized sampleDescriptor ()) (fun _ => 0) disturbedRead).written = [1, 2] ∧
      ((run (unsynchronized sampleDescriptor ()) (fun _ => 0) disturbedRead).readers ()).reads =
        [(0, [9])] := by
  decide

end Fmq
