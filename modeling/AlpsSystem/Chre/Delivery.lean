import AlpsSystem.Chre.EventBooks

/-!
# Delivery of events

What holds in every run of the event loop, wherever its thread is.

* `events_delivered` — events are delivered exactly once and in order, and freed after that.
-/

namespace Chre.EventLoop

open Runs (EachStep foldSteps_inv)

open List

/-! ## What is claimed of a state -/

/-- Every event that was popped while the loop was running was distributed.  An event that
was distributed is delivered, or waits to be, exactly once for every nanoapp it was for and
for no other; every nanoapp gets its events in the order of posting; an event is freed once,
when no queue has it any more, and nothing happens to it after that; and at the head of the
loop no event waits for a nanoapp. -/
structure Sound (s : State) : Prop where
  noCrash : s.crashed = false
  distributed : ∀ id ∈ s.poppedRunning, ∃ recipients, (id, recipients) ∈ s.distributed
  once : ∀ id recipients, (id, recipients) ∈ s.distributed → ∀ a,
    (s.deliveredTo a).count id + (s.queueOf a).count id = if a ∈ recipients then 1 else 0
  inOrder : ∀ a, (s.deliveredTo a).Pairwise (· < ·)
  freed : ∀ id recipients, (id, recipients) ∈ s.distributed → s.history.count (.freed id) =
      if s.nanoapps.any fun app => app.eventQueue.contains id then 0 else 1
  last : s.history.Pairwise fun x y => ∀ id, x = .freed id → y.event ≠ id
  atHead : ∀ b, s.stack = [.run b] ∨ s.stack = [.pop] → s.Drained

/-- The step has room for the event that it distributes, and an unload that goes on finds
its index in the list of nanoapps. -/
def State.safe (s : State) (step : Step) : Bool :=
  match step, s.stack, s.events with
  | .tick, .flush _ :: _, id :: _ => s.room id
  | .tick, .flush index :: _, [] => decide (index < s.nanoapps.length)
  | _, _, _ => true

/-! ## Where the thread of the loop is -/

/-- Below this index, a nanoapp has events only if that was noted. -/
def DrainedBelow (apps : List Nanoapp) (index : Nat) (noted : Bool) : Prop :=
  ∀ j < index, ∀ app, apps[j]? = some app → app.eventQueue ≠ [] → noted = true

/-- What holds of the nanoapps, and of `mRunning`, where the thread of the loop is. -/
def Frame.At (apps : List Nanoapp) (running : Bool) : Frame → Prop
  | .run havePendingEvents => havePendingEvents = false ∧ ∀ app ∈ apps, app.eventQueue = []
  | .pop => ∀ app ∈ apps, app.eventQueue = []
  -- in the loop of `run`, every nanoapp has one event at most
  | .deliver .run index havePendingEvents => havePendingEvents = false ∧
      DrainedBelow apps index false ∧ ∀ app ∈ apps, app.eventQueue.length ≤ 1
  | .deliver .exit index havePendingEvents =>
      running = false ∧ DrainedBelow apps index havePendingEvents
  | .deliver (.unload _) index havePendingEvents => DrainedBelow apps index havePendingEvents
  | .purge => running = false ∧ ∀ app ∈ apps, app.eventQueue = []
  | .unloadAll => running = false ∧ ∀ app ∈ apps, app.eventQueue = []
  | .flush _ => True

/-- The thread can come back to this frame once the queues of all nanoapps are empty. -/
def Frame.Resumes (running : Bool) : Frame → Prop
  | .deliver .run 0 false => True
  | .purge => running = false
  | .flush _ => True
  | _ => False

/-- The first frame is where the thread is, the others wait for it. -/
def Placed (apps : List Nanoapp) (running : Bool) : List Frame → Prop
  | [] => ∀ app ∈ apps, app.eventQueue = []
  | frame :: rest => frame.At apps running ∧ ∀ g ∈ rest, g.Resumes running

variable {apps : List Nanoapp} {running noted : Bool} {index id : Nat} {app : Nanoapp}
  {rest stack : List Frame} {s : State} {event : Event} {caller : Caller} {frame : Frame}

lemma drainedBelow_zero (apps : List Nanoapp) (noted : Bool) : DrainedBelow apps 0 noted :=
  fun j hj => absurd hj (Nat.not_lt_zero j)

/-- At the end of `deliverEvents` nothing waits, unless that was noted. -/
lemma DrainedBelow.end (h : DrainedBelow apps index false)
    (hend : apps[index]? = none) : ∀ app ∈ apps, app.eventQueue = [] := by
  intro app happ
  obtain ⟨j, hj, heq⟩ := getElem_of_mem happ
  have hlen : apps.length ≤ index := List.getElem?_eq_none_iff.mp hend
  by_contra hne
  exact absurd (h j (by omega) app (List.getElem?_eq_some_iff.mpr ⟨hj, heq⟩) hne)
    Bool.false_ne_true

section

variable (h : DrainedBelow apps index noted) {f : Nanoapp → Nanoapp}

include h

lemma DrainedBelow.succ (hget : apps[index]? = some app) {noted' : Bool}
    (hnoted : noted → noted') (happ : app.eventQueue ≠ [] → noted') :
    DrainedBelow apps (index + 1) noted' := by
  intro j hj app' hget' hne
  by_cases heq : j = index
  · subst heq
    obtain rfl := Option.some.inj (hget.symm.trans hget')
    exact happ hne
  · exact hnoted (h j (by omega) app' hget' hne)

lemma DrainedBelow.set (app : Nanoapp) : DrainedBelow (apps.set index app) index noted := by
  intro j hj app' hget
  rw [List.getElem?_set_ne (ne_of_gt hj)] at hget
  exact h j hj app' hget

lemma DrainedBelow.map (hqueue : ∀ app, (f app).eventQueue = app.eventQueue) :
    DrainedBelow (apps.map f) index noted := by
  intro j hj app hget hne
  rw [List.getElem?_map] at hget
  obtain ⟨app', hget', rfl⟩ := Option.map_eq_some_iff.mp hget
  exact h j hj app' hget' (hqueue app' ▸ hne)

end

/-- With empty queues, the thread is back where it waited. -/
lemma Frame.Resumes.at (h : frame.Resumes running)
    (hempty : ∀ app ∈ apps, app.eventQueue = []) : frame.At apps running := by
  match frame, h with
  | .deliver .run 0 false, _ =>
    refine ⟨rfl, drainedBelow_zero apps false, fun app happ => ?_⟩
    rw [hempty app happ]
    exact Nat.zero_le 1
  | .purge, h => exact ⟨h, hempty⟩
  | .flush _, _ => trivial

lemma placed_rest (h : ∀ g ∈ rest, g.Resumes running)
    (hempty : ∀ app ∈ apps, app.eventQueue = []) : Placed apps running rest := by
  cases rest with
  | nil => exact hempty
  | cons frame rest =>
    exact ⟨(h frame mem_cons_self).at hempty, fun g hg => h g (.tail _ hg)⟩

lemma Frame.At.map (h : frame.At apps running)
    (hqueue : ∀ app, (f app).eventQueue = app.eventQueue) : frame.At (apps.map f) running := by
  have hempty : (∀ app ∈ apps, app.eventQueue = []) → ∀ app ∈ apps.map f, app.eventQueue = [] := by
    simp [hqueue]
  match frame, h with
  | .run _, h => exact ⟨h.1, hempty h.2⟩
  | .pop, h => exact hempty h
  | .deliver .run _ _, h => exact ⟨h.1, h.2.1.map hqueue, by simpa [hqueue] using h.2.2⟩
  | .deliver .exit _ _, h => exact ⟨h.1, h.2.map hqueue⟩
  | .deliver (.unload _) _ _, h => exact DrainedBelow.map h hqueue
  | .purge, h => exact ⟨h.1, hempty h.2⟩
  | .unloadAll, h => exact ⟨h.1, hempty h.2⟩
  | .flush _, _ => trivial

lemma Placed.map (h : Placed apps running stack)
    (hqueue : ∀ app, (f app).eventQueue = app.eventQueue) : Placed (apps.map f) running stack := by
  cases stack with
  | nil =>
    intro app happ
    obtain ⟨app', happ', rfl⟩ := mem_map.mp happ
    rw [hqueue]
    exact h app' happ'
  | cons frame rest => exact ⟨h.1.map hqueue, h.2⟩

/-- Clearing `mRunning` changes nothing where the thread is. -/
lemma Placed.stop (h : Placed apps running stack) : Placed apps false stack := by
  have hresumes : ∀ g : Frame, g.Resumes running → g.Resumes false := by
    intro g hg
    match g, hg with
    | .deliver .run 0 false, _ => trivial
    | .purge, _ => rfl
    | .flush _, _ => trivial
  cases stack with
  | nil => exact h
  | cons frame rest =>
    refine ⟨?_, fun g hg => hresumes g (h.2 g hg)⟩
    match frame, h.1 with
    | .run _, h => exact h
    | .pop, h => exact h
    | .deliver .run _ _, h => exact h
    | .deliver .exit _ _, h => exact ⟨rfl, h.2⟩
    | .deliver (.unload _) _ _, h => exact h
    | .purge, h => exact ⟨rfl, h.2⟩
    | .unloadAll, h => exact ⟨rfl, h.2⟩
    | .flush _, _ => trivial

/-! ## Steps -/

/-- What holds between two steps. -/
structure Ok (s : State) : Prop where
  noCrash : s.crashed = false
  books : Books s.toQueues none
  placed : Placed s.nanoapps s.running s.stack
  popped : ∀ id ∈ s.poppedRunning, ∃ recipients, (id, recipients) ∈ s.distributed

open State

/-- An event is freed and deallocated, or its callback starts to unload a nanoapp. -/
lemma freeEvent_eq (s : State) (id : Nat) :
    s.freeEvent id = { s with toQueues := s.logFreed id, poolUsed := s.poolUsed - 1 } ∨
      ∃ index, s.freeEvent id =
          { s with toQueues := s.logFreed id, stack := .flush index :: s.stack } ∧
        ∃ i allow, (s.eventAt id).freeCallback = some (.unload i allow) := by
  unfold freeEvent
  dsimp only
  split
  case h_1 i allow hcallback =>
    split
    case h_1 index _ => exact .inr ⟨index, rfl, i, allow, hcallback⟩
    case h_2 => exact .inl rfl
  case h_2 => exact .inl rfl

section

variable (hcrash : s.crashed = false) (hpopped : id < s.next)
  (hplaced : Placed s.nanoapps s.running s.stack)
  (hresumes : ∀ i allow, (s.eventAt id).freeCallback = some (.unload i allow) →
    ∀ g ∈ s.stack, g.Resumes s.running)
  (hall : ∀ id ∈ s.poppedRunning, ∃ recipients, (id, recipients) ∈ s.distributed)

include hcrash hpopped hplaced hresumes hall

/-- An event that is owed is freed.  If its callback unloads a nanoapp, the thread can come
back to where it is. -/
lemma freeEvent_ok (hbooks : Books s.toQueues (some id))
    (hunqueued : ∀ app ∈ s.nanoapps, id ∉ app.eventQueue) : Ok (s.freeEvent id) := by
  have hfreed := hbooks.logFreed hpopped hunqueued
  rcases freeEvent_eq s id with heq | ⟨index, heq, i, allow, hcallback⟩
  · rw [heq]
    exact ⟨hcrash, hfreed, hplaced, hall⟩
  · rw [heq]
    exact ⟨hcrash, hfreed, ⟨trivial, hresumes i allow hcallback⟩, hall⟩

lemma freeIfUnreferenced_ok
    (hbooks : Books s.toQueues (if s.refCount id = 0 then some id else none)) :
    Ok (s.freeIfUnreferenced id) := by
  unfold freeIfUnreferenced
  split
  case isTrue hzero =>
    have hcount := hbooks.refCount id
    rw [hzero, eq_comm, countP_eq_zero] at hcount
    rw [if_pos hzero] at hbooks
    exact freeEvent_ok hcrash hpopped hplaced hresumes hall hbooks
      fun app happ => by simpa using hcount app happ
  case isFalse hzero =>
    rw [if_neg hzero] at hbooks
    exact ⟨hcrash, hbooks, hplaced, hall⟩

end

/-- An event is popped and distributed.  The thread then is at a frame `top`. -/
lemma distribute_ok (h : Ok s) {events : List Nat} (hevents : s.events = id :: events)
    (hroom : s.room id = true)
    (hplaced : Placed (s.nanoapps.map (receive (s.eventAt id) id)) s.running stack)
    (hresumes : ∀ g ∈ stack, g.Resumes s.running) :
    Ok ({ s.popped id events with stack }.distributeEvent id) := by
  obtain ⟨hbooks, hfresh⟩ := h.books.popped hevents
  have hposted : id < s.posted.length := by
    have hle := hbooks.next_le
    have hlt := hfresh.popped
    exact hlt.trans_le (hle ▸ le_self_add)
  have hhand := hbooks.hand hfresh hroom hposted
  refine freeIfUnreferenced_ok h.noCrash hfresh.popped hplaced (fun _ _ _ => hresumes) ?_ hhand
  intro i hi
  have hi' : i ∈ if s.running then s.poppedRunning ++ [id] else s.poppedRunning := hi
  have hold : i ∈ s.poppedRunning → ∃ recipients, (i, recipients) ∈
      s.distributed ++
        [(id, (s.nanoapps.filter (isFor (s.eventAt id))).map Nanoapp.instanceId)] := by
    intro hmem
    obtain ⟨recipients, hrec⟩ := h.popped i hmem
    exact ⟨recipients, mem_append_left _ hrec⟩
  split at hi'
  · rcases mem_append.mp hi' with hi' | hi'
    · exact hold hi'
    · rw [mem_singleton.mp hi']
      exact ⟨_, mem_append_right _ mem_cons_self⟩
  · exact hold hi'

section

variable (hcallback : ∀ i allow, event.freeCallback = some (.unload i allow) →
  event.targetInstanceId = kSystemInstanceId)

include hcallback

/-- A post changes nothing for the thread of the loop. -/
lemma push_ok (h : Ok s) : Ok (s.push event).2 := by
  unfold push
  split
  · split
    · exact ⟨h.noCrash, h.books.enqueue hcallback, h.placed, h.popped⟩
    · exact { h with }
  · exact h

lemma postEvent_ok (h : Ok s) : Ok (s.postEvent event).2 := by
  unfold postEvent
  split
  · exact push_ok hcallback h
  · exact h

end

lemma postEvent_frame (s : State) (event : Event) :
    (s.postEvent event).2.nanoapps = s.nanoapps ∧ (s.postEvent event).2.running = s.running := by
  unfold postEvent push
  split
  · split
    · split <;> exact ⟨rfl, rfl⟩
    · exact ⟨rfl, rfl⟩
  · exact ⟨rfl, rfl⟩

lemma finishUnload_ok (h : Ok s) (hdrained : s.Drained) (index : Nat)
    (hrest : ∀ g ∈ rest, g.Resumes s.running) : Ok (s.finishUnload index rest) := by
  unfold finishUnload
  generalize hevent : ({ eventType := eventNanoappStopped, freeCallback := some .data
                         senderInstanceId := kSystemInstanceId
                         targetInstanceId := kBroadcastInstanceId } : Event) = event
  have hpost : Ok (s.postEvent event).2 := by
    refine postEvent_ok (fun i allow hcallback => ?_) h
    subst hevent
    cases hcallback
  obtain ⟨happs, hrunning⟩ := postEvent_frame s event
  have hdrained' : (s.postEvent event).2.Drained := by
    unfold Queues.Drained
    rw [happs]
    exact hdrained
  refine ⟨hpost.noCrash, hpost.books.unload hdrained' (eraseIdx_sublist _ _), ?_, hpost.popped⟩
  refine placed_rest (fun g hg => ?_) fun app happ => ?_
  · exact hrunning.symm ▸ hrest g hg
  · exact hdrained' app ((eraseIdx_sublist _ _).subset happ)

lemma deliverReturns_ok (h : Ok s) (hstack : s.stack = .deliver caller index noted :: rest)
    (hend : s.nanoapps[index]? = none) : Ok (s.deliverReturns caller noted rest) := by
  have hplaced := h.placed
  rw [hstack] at hplaced
  obtain ⟨hat, hrest⟩ := hplaced
  cases caller with
  | run =>
    obtain ⟨hnoted, hbelow, -⟩ := hat
    exact ⟨h.noCrash, h.books, ⟨⟨hnoted, hbelow.end hend⟩, hrest⟩, h.popped⟩
  | exit =>
    obtain ⟨hrunning, hbelow⟩ := hat
    cases noted with
    | true => exact ⟨h.noCrash, h.books, ⟨⟨hrunning, drainedBelow_zero _ _⟩, hrest⟩, h.popped⟩
    | false => exact ⟨h.noCrash, h.books, ⟨⟨hrunning, hbelow.end hend⟩, hrest⟩, h.popped⟩
  | unload target =>
    have hbelow : DrainedBelow s.nanoapps index noted := hat
    cases noted with
    | true => exact ⟨h.noCrash, h.books, ⟨drainedBelow_zero _ _, hrest⟩, h.popped⟩
    | false => exact finishUnload_ok h (hbelow.end hend) target hrest

open EventLoop.Frame

/-- `deliverEvents` goes on to the next nanoapp. -/
lemma Frame.At.succ (h : (deliver caller index noted).At apps running)
    (hget : apps[index]? = some app) {queue : List Nat}
    (hqueue : app.eventQueue = [] ∧ queue = [] ∨ ∃ id, app.eventQueue = id :: queue) :
    (deliver caller (index + 1) (noted || !queue.isEmpty)).At
      (apps.set index { app with eventQueue := queue }) running := by
  have hset : (apps.set index { app with eventQueue := queue })[index]? =
      some { app with eventQueue := queue } := by
    rw [List.getElem?_set_self (List.getElem?_eq_some_iff.mp hget).1]
  have hbelow : DrainedBelow apps index noted →
      DrainedBelow (apps.set index { app with eventQueue := queue }) (index + 1)
        (noted || !queue.isEmpty) := by
    intro hbelow
    refine (hbelow.set _).succ hset (fun hnoted => by rw [hnoted]; rfl) fun hne => ?_
    have hne' : queue ≠ [] := hne
    rw [isEmpty_eq_false_iff.mpr hne']
    exact Bool.or_true _
  cases caller with
  | run =>
    obtain ⟨rfl, hdrained, hlen⟩ := h
    have happ : app.eventQueue.length ≤ 1 := hlen app (mem_of_getElem? hget)
    have hnil : queue = [] := by
      rcases hqueue with ⟨-, hnil⟩ | ⟨id, hcons⟩
      · exact hnil
      · rw [hcons, length_cons] at happ
        exact length_eq_zero_iff.mp (by omega)
    subst hnil
    refine ⟨rfl, hbelow hdrained, fun app' happ' => ?_⟩
    rcases mem_or_eq_of_mem_set happ' with happ' | rfl
    · exact hlen app' happ'
    · exact Nat.zero_le 1
  | exit => exact ⟨h.1, hbelow h.2⟩
  | unload => exact hbelow h

lemma deliverAt_ok (h : Ok s) (hstack : s.stack = .deliver caller index noted :: rest) :
    Ok (s.deliverAt caller index noted rest) := by
  have hplaced := h.placed
  rw [hstack] at hplaced
  obtain ⟨hat, hrest⟩ := hplaced
  unfold deliverAt
  cases hget : s.nanoapps[index]? with
  | none => exact deliverReturns_ok h hstack hget
  | some app =>
    dsimp only
    cases hqueue : app.eventQueue with
    | nil =>
      have hnext := hat.succ hget (.inl ⟨hqueue, rfl⟩)
      have hsame : s.nanoapps.set index { app with eventQueue := [] } = s.nanoapps := by
        obtain ⟨hlt, heq⟩ := List.getElem?_eq_some_iff.mp hget
        rw [← hqueue, ← heq]
        exact set_getElem_self hlt
      rw [hsame, isEmpty_nil, Bool.not_true, Bool.or_false] at hnext
      exact ⟨h.noCrash, h.books, ⟨hnext, hrest⟩, h.popped⟩
    | cons id queue =>
      have hmem : app ∈ s.nanoapps := mem_of_getElem? hget
      have hself : id ∈ app.eventQueue := hqueue ▸ mem_cons_self
      have hbooks := h.books.processNextEvent hget hqueue
      refine freeIfUnreferenced_ok h.noCrash (h.books.waiting_lt app hmem id hself)
        ⟨hat.succ hget (.inr ⟨id, hqueue⟩), hrest⟩ ?_ h.popped hbooks
      intro i allow hcallback
      exact absurd hcallback (h.books.quiet app hmem id hself i allow)

lemma length_receive_le (event : Event) (id : Nat) (h : app.eventQueue = []) :
    (receive event id app).eventQueue.length ≤ 1 := by
  unfold receive postToApp
  split
  · split <;> simp [h]
  · simp [h]

lemma tick_ok (h : Ok s) (hsafe : s.safe .tick) : Ok s.tick := by
  unfold tick
  have hplaced := h.placed
  cases hstack : s.stack with
  | nil => exact h
  | cons frame rest =>
    rw [hstack] at hplaced
    obtain ⟨hat, hrest⟩ := hplaced
    cases frame with
    | run noted =>
      obtain ⟨rfl, hempty⟩ := hat
      dsimp only
      split
      case isTrue =>
        split
        · exact ⟨h.noCrash, h.books, ⟨hempty, hrest⟩, h.popped⟩
        · have hresumes : ∀ g ∈ deliver .run 0 false :: rest, g.Resumes s.running :=
            forall_mem_cons.mpr ⟨trivial, hrest⟩
          exact ⟨h.noCrash, h.books, placed_rest hresumes hempty, h.popped⟩
      case isFalse hrunning =>
        have hstopped : s.running = false := by simpa using hrunning
        exact ⟨h.noCrash, h.books, ⟨⟨hstopped, drainedBelow_zero _ _⟩, hrest⟩, h.popped⟩
    | pop =>
      cases hevents : s.events with
      | nil => exact h
      | cons id events =>
        have hroom : s.room id := all_eq_true.mpr fun app happ => by
          rw [hat app happ]
          exact Bool.or_true _
        refine distribute_ok h hevents hroom ?_ ?_
        · refine ⟨⟨rfl, drainedBelow_zero _ _, fun app happ => ?_⟩, hrest⟩
          obtain ⟨app', happ', rfl⟩ := mem_map.mp happ
          exact length_receive_le _ id (hat app' happ')
        · exact forall_mem_cons.mpr ⟨trivial, hrest⟩
    | deliver caller index noted => exact deliverAt_ok h hstack
    | purge =>
      obtain ⟨hstopped, hempty⟩ := hat
      cases hevents : s.events with
      | nil => exact ⟨h.noCrash, h.books, ⟨⟨hstopped, hempty⟩, hrest⟩, h.popped⟩
      | cons id events =>
        obtain ⟨hbooks, hfresh⟩ := h.books.popped hevents
        have hpopped : (s.popped id events).poppedRunning = s.poppedRunning :=
          if_neg (by rw [hstopped]; exact Bool.false_ne_true)
        refine freeEvent_ok h.noCrash hfresh.popped h.placed ?_ ?_ hbooks ?_
        · intro _ _ _
          rw [show (s.popped id events).stack = .purge :: rest from hstack]
          exact forall_mem_cons.mpr ⟨hstopped, hrest⟩
        · rw [hpopped]
          exact h.popped
        · intro app happ
          rw [hempty app happ]
          exact not_mem_nil
    | unloadAll =>
      obtain ⟨hstopped, hempty⟩ := hat
      dsimp only
      split
      · exact ⟨h.noCrash, h.books, placed_rest hrest hempty, h.popped⟩
      · have hsub : s.nanoapps.dropLast.Sublist s.nanoapps := dropLast_sublist _
        refine ⟨h.noCrash, h.books.unload hempty hsub, ?_, h.popped⟩
        exact ⟨⟨hstopped, fun app happ => hempty app (hsub.subset happ)⟩, hrest⟩
    | flush index =>
      unfold safe at hsafe
      rw [hstack] at hsafe
      cases hevents : s.events with
      | nil =>
        rw [hevents] at hsafe
        dsimp only
        rw [if_pos (of_decide_eq_true hsafe)]
        exact ⟨h.noCrash, h.books, ⟨drainedBelow_zero _ _, hrest⟩, h.popped⟩
      | cons id events =>
        rw [hevents] at hsafe
        have hplaced : Placed (s.nanoapps.map (receive (s.eventAt id) id)) s.running
            (.flush index :: rest) := ⟨trivial, hrest⟩
        have hok := distribute_ok h hevents hsafe hplaced
          (forall_mem_cons.mpr ⟨trivial, hrest⟩)
        rw [← hstack] at hok
        exact hok

/-- The registrations of a nanoapp change. -/
lemma updateApp_ok (h : Ok s) (i : Nat) (hid : ∀ app, (f app).instanceId = app.instanceId)
    (hqueue : ∀ app, (f app).eventQueue = app.eventQueue) :
    Ok { s with nanoapps := updateApp s.nanoapps i f } := by
  have hid' : ∀ app : Nanoapp,
      (if app.instanceId = i then f app else app).instanceId = app.instanceId := by
    intro app
    split
    · exact hid app
    · rfl
  have hqueue' : ∀ app : Nanoapp,
      (if app.instanceId = i then f app else app).eventQueue = app.eventQueue := by
    intro app
    split
    · exact hqueue app
    · rfl
  exact ⟨h.noCrash, h.books.map hid' hqueue', h.placed.map hqueue', h.popped⟩

lemma postFrom_ok (h : Ok s) (late : Bool)
    (hcallback : ∀ i allow, event.freeCallback = some (.unload i allow) →
      event.targetInstanceId = kSystemInstanceId) : Ok (s.postFrom late event) := by
  unfold postFrom
  split
  · exact push_ok hcallback h
  · exact postEvent_ok hcallback h

/-- **Steps.** -/
theorem step_ok (h : Ok s) (step : Step) (hsafe : s.safe step) : Ok (s.step step) := by
  unfold State.step
  rw [if_neg (by rw [h.noCrash]; exact Bool.false_ne_true)]
  cases step with
  | post eventType freeCallback sender target late =>
    refine postFrom_ok h late fun i allow hcallback => ?_
    cases freeCallback <;> cases hcallback
  | deferUnload eventType instanceId allow late => exact postFrom_ok h late fun _ _ _ => rfl
  | registerForBroadcastEvent instanceId eventId =>
    exact updateApp_ok h instanceId (fun app => app.registerForBroadcastEvent_instanceId eventId)
      fun app => app.registerForBroadcastEvent_eventQueue eventId
  | unregisterForBroadcastEvent instanceId eventId =>
    exact updateApp_ok h instanceId (fun app => app.unregisterForBroadcastEvent_instanceId eventId)
      fun app => app.unregisterForBroadcastEvent_eventQueue eventId
  | stop => exact ⟨h.noCrash, h.books, h.placed.stop, h.popped⟩
  | tick => exact tick_ok h hsafe

/-! ## Runs -/

/-- The queue of a nanoapp, found by its instance ID. -/
lemma queueOf_cases {q : Queues} {owed : Option Nat} (h : Books q owed) (a : Nat) :
    (∃ app ∈ q.nanoapps, app.instanceId = a ∧ q.queueOf a = app.eventQueue ∧
        ∀ id, q.Waits a id ↔ id ∈ app.eventQueue) ∨
      q.queueOf a = [] ∧ ∀ id, ¬ q.Waits a id := by
  unfold Queues.queueOf
  cases hlookup : lookupAppByInstanceId q.nanoapps a with
  | none =>
    refine .inr ⟨rfl, fun id ⟨app, happ, ha, _⟩ => ?_⟩
    unfold lookupAppByInstanceId at hlookup
    rw [if_neg (ha ▸ h.system app happ), List.find?_eq_none] at hlookup
    exact absurd (beq_iff_eq.mpr ha) (hlookup app happ)
  | some app =>
    unfold lookupAppByInstanceId at hlookup
    split at hlookup
    · cases hlookup
    · have happ := mem_of_find?_eq_some hlookup
      have ha : app.instanceId = a := by simpa using List.find?_some hlookup
      refine .inl ⟨app, happ, ha, rfl, fun id => ⟨?_, fun hid => ⟨app, happ, ha, hid⟩⟩⟩
      rintro ⟨app', happ', ha', hid⟩
      exact inj_on_of_nodup_map h.ids happ' happ (ha'.trans ha.symm) ▸ hid

/-- An event is freed at most once. -/
lemma count_freed_le {history : List Action}
    (h : history.Pairwise fun x y => ∀ id, x = .freed id → y.event ≠ id) :
    history.count (.freed id) ≤ 1 := by
  by_contra hcount
  have hsub : List.Sublist [Action.freed id, Action.freed id] history :=
    List.replicate_sublist_iff.mpr (Nat.lt_of_not_le hcount)
  have hpair := h.sublist hsub
  rw [pairwise_cons] at hpair
  exact hpair.1 _ mem_cons_self id rfl rfl

lemma Ok.sound (h : Ok s) : Sound s where
  noCrash := h.noCrash
  distributed := h.popped
  once id recipients hmem a := by
    have hrec := h.books.recipients (id, recipients) hmem a
    have hnodup : (s.deliveredTo a ++ s.queueOf a).Nodup ∧
        (id ∈ s.deliveredTo a ++ s.queueOf a ↔ a ∈ recipients) := by
      rcases queueOf_cases h.books a with ⟨app, happ, rfl, hqueue, hwaits⟩ | ⟨hqueue, hwaits⟩
      · rw [hqueue, mem_append, ← hwaits]
        exact ⟨(h.books.queued app happ).imp ne_of_lt, hrec.symm⟩
      · rw [hqueue, append_nil]
        refine ⟨(h.books.ordered a).imp ne_of_lt, ?_⟩
        rw [hrec]
        exact ⟨.inl, fun hor => hor.resolve_right (hwaits id)⟩
    rw [← count_append]
    split
    case isTrue ha => exact count_eq_one_of_mem hnodup.1 (hnodup.2.mpr ha)
    case isFalse ha => exact count_eq_zero_of_not_mem fun hid => ha (hnodup.2.mp hid)
  inOrder := h.books.ordered
  freed id recipients hmem := by
    have hfreed := h.books.freed id
    have hlt := h.books.distributed_lt (id, recipients) hmem
    split
    case isTrue hany =>
      refine count_eq_zero_of_not_mem fun hin => ?_
      obtain ⟨app, happ, hid⟩ := any_eq_true.mp hany
      exact (hfreed.mp hin).2.1 app happ (contains_iff_mem.mp hid)
    case isFalse hany =>
      have hunqueued : ∀ app ∈ s.nanoapps, id ∉ app.eventQueue := by
        intro app happ hid
        exact hany (any_eq_true.mpr ⟨app, happ, contains_iff_mem.mpr hid⟩)
      have hpos : 0 < s.history.count (.freed id) :=
        count_pos_iff.mpr (hfreed.mpr ⟨hlt, hunqueued, nofun⟩)
      exact le_antisymm (count_freed_le h.books.last) hpos
  last := h.books.last
  atHead b hstack := by
    have hplaced := h.placed
    rcases hstack with hstack | hstack
    · rw [hstack] at hplaced
      exact hplaced.1.2
    · rw [hstack] at hplaced
      exact hplaced.1

/-- Nanoapps as they are loaded: with instance IDs of their own, and nothing in their queues. -/
structure Loaded (nanoapps : List Nanoapp) : Prop where
  ids : (nanoapps.map Nanoapp.instanceId).Nodup
  system : ∀ app ∈ nanoapps, app.instanceId ≠ kSystemInstanceId
  empty : ∀ app ∈ nanoapps, app.eventQueue = []

lemma initial_ok {nanoapps : List Nanoapp} (h : Loaded nanoapps) :
    Ok { nanoapps } where
  noCrash := rfl
  books :=
    { ids := h.ids
      system := h.system
      inbound := rfl
      bound := Nat.le_refl 0
      ordered := fun _ => List.Pairwise.nil
      queued := fun app happ => by rw [h.empty app happ]; exact List.Pairwise.nil
      delivered_lt := fun _ => nofun
      waiting_lt := fun app happ => by rw [h.empty app happ]; exact nofun
      distributed_lt := nofun
      recipients := nofun
      refCount := fun id => by
        refine (List.countP_eq_zero.mpr fun app happ => ?_).symm
        simp [h.empty app happ]
      freed := fun id => ⟨nofun, fun ⟨hlt, _⟩ => absurd hlt (Nat.not_lt_zero id)⟩
      last := List.Pairwise.nil
      callbacks := nofun
      quiet := fun app happ => by rw [h.empty app happ]; exact nofun }
  placed := ⟨⟨rfl, h.empty⟩, nofun⟩
  popped := nofun

/-- **Events are delivered exactly once.** In every run in which an unload finds room for
the events it flushes, and its nanoapp where it was, the books are sound in every state. -/
theorem events_delivered (nanoapps : List Nanoapp) (hloaded : Loaded nanoapps) (steps : List Step)
    (hsafe : EachStep (fun s step => s.safe step = true) State.step { nanoapps := nanoapps }
      steps) : Sound (run nanoapps steps) :=
  (foldSteps_inv (I := Ok) (fun _ step hok hstep => step_ok hok step hstep) steps _
    (initial_ok hloaded) hsafe).sound

/-- Two nanoapps, with one event for each and one for both. -/
def sampleNanoapps : List Nanoapp :=
  [{ instanceId := 1, registeredEvents := [5] }, { instanceId := 2, registeredEvents := [5] }]

/-- The events for the nanoapps are posted, and the second nanoapp is unloaded before they
are delivered. -/
def sampleRun : List Step :=
  [.deferUnload 0 2 true false, .post 7 true 0 1 false, .post 5 true 0 kBroadcastInstanceId false]
    ++ List.replicate 20 .tick

lemma loaded_sampleNanoapps : Loaded sampleNanoapps := ⟨by decide, by decide, by decide⟩

theorem events_delivered_sampleRun :
    Sound (run sampleNanoapps sampleRun) ∧ (run sampleNanoapps sampleRun).history =
        [.freed 0, .delivered 1 1, .freed 1, .delivered 2 2, .delivered 1 2, .freed 2,
         .freed 3] ∧
      (run sampleNanoapps sampleRun).stack = [.pop] :=
  ⟨events_delivered sampleNanoapps loaded_sampleNanoapps sampleRun (by decide), by decide,
    by decide⟩

/-- Seventeen events for the first nanoapp are posted behind a request to unload the second
one. -/
def overflowRun : List Step :=
  .deferUnload 0 2 true false :: List.replicate 17 (.post 7 true 0 1 false)
    ++ List.replicate 100 .tick

/-- **An event is lost.** The flush before the unload overflows the queue of the first
nanoapp: the last of its events is freed and not delivered. -/
theorem overflow_in_flush :
    (run sampleNanoapps overflowRun).running = true ∧
      (17, [1]) ∈ (run sampleNanoapps overflowRun).distributed ∧
      17 ∈ (run sampleNanoapps overflowRun).poppedRunning ∧
      17 ∉ (run sampleNanoapps overflowRun).deliveredTo 1 ∧
      Action.freed 17 ∈ (run sampleNanoapps overflowRun).history := by
  decide +kernel

end Chre.EventLoop
