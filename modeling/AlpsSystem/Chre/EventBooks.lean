import AlpsSystem.Chre.EventLoop

/-!
# Where events are

The queues of the event loop and what happened to events are one set of books: what a
nanoapp has received, followed by what waits for it, is in the order of posting, and an
event is freed once no queue has it any more.
-/

namespace Chre.EventLoop

open List

/-! ## Where events are -/

namespace Queues

/-- The place of the next event to be popped. -/
def next (q : Queues) : Nat := q.posted.length - q.events.length

/-- The events that were delivered to a nanoapp, in order. -/
def deliveredTo (q : Queues) (instanceId : Nat) : List Nat :=
  q.history.filterMap fun action =>
    match action with
    | .delivered i event => if i = instanceId then some event else none
    | .freed _ => none

/-- The event is in the queue of this nanoapp. -/
def Waits (q : Queues) (instanceId id : Nat) : Prop :=
  ∃ app ∈ q.nanoapps, app.instanceId = instanceId ∧ id ∈ app.eventQueue

/-- The queue of the nanoapp with this instance ID. -/
def queueOf (q : Queues) (instanceId : Nat) : List Nat :=
  match lookupAppByInstanceId q.nanoapps instanceId with
  | some app => app.eventQueue
  | none => []

/-- The queues of all nanoapps are empty. -/
def Drained (q : Queues) : Prop := ∀ app ∈ q.nanoapps, app.eventQueue = []

end Queues

/-- The state of all events.  `owed` is an event that no queue has and that was not freed. -/
structure Books (q : Queues) (owed : Option Nat) : Prop where
  ids : (q.nanoapps.map Nanoapp.instanceId).Nodup
  system : ∀ app ∈ q.nanoapps, app.instanceId ≠ kSystemInstanceId
  inbound : q.events = List.range' q.next q.events.length
  bound : q.events.length ≤ q.posted.length
  ordered : ∀ a, (q.deliveredTo a).Pairwise (· < ·)
  queued : ∀ app ∈ q.nanoapps, (q.deliveredTo app.instanceId ++ app.eventQueue).Pairwise (· < ·)
  delivered_lt : ∀ a, ∀ id ∈ q.deliveredTo a, id < q.next
  waiting_lt : ∀ app ∈ q.nanoapps, ∀ id ∈ app.eventQueue, id < q.next
  distributed_lt : ∀ p ∈ q.distributed, p.1 < q.next
  recipients : ∀ p ∈ q.distributed, ∀ a, a ∈ p.2 ↔ p.1 ∈ q.deliveredTo a ∨ q.Waits a p.1
  refCount : ∀ id, q.refCount id = q.nanoapps.countP fun app => decide (id ∈ app.eventQueue)
  freed : ∀ id, Action.freed id ∈ q.history ↔
    id < q.next ∧ (∀ app ∈ q.nanoapps, id ∉ app.eventQueue) ∧ owed ≠ some id
  last : q.history.Pairwise fun x y => ∀ id, x = .freed id → y.event ≠ id
  callbacks : ∀ event ∈ q.posted, ∀ i allow, event.freeCallback = some (.unload i allow) →
    event.targetInstanceId = kSystemInstanceId
  quiet : ∀ app ∈ q.nanoapps, ∀ id ∈ app.eventQueue, ∀ i allow,
    (q.eventAt id).freeCallback ≠ some (.unload i allow)

variable {q : Queues} {owed : Option Nat} {id count index : Nat} {app : Nanoapp}
  {apps : List Nanoapp} {rest : List Nat}

/-! ## Posts and registrations -/

open Queues

lemma eventAt_enqueue (q : Queues) (event : Event) (h : id < q.posted.length) :
    (q.enqueue event).eventAt id = q.eventAt id := by
  exact getD_append _ _ _ _ h

lemma next_enqueue (q : Queues) (event : Event) : (q.enqueue event).next = q.next := by
  simp only [Queues.next, enqueue, length_append, length_singleton]
  omega

lemma Books.next_le (h : Books q owed) : q.next + q.events.length = q.posted.length :=
  Nat.sub_add_cancel h.bound

/-- A post adds an event behind the others. -/
lemma Books.enqueue (h : Books q owed) {event : Event}
    (hcallback : ∀ i allow, event.freeCallback = some (.unload i allow) →
      event.targetInstanceId = kSystemInstanceId) : Books (q.enqueue event) owed := by
  have hnext := next_enqueue q event
  have hle := h.next_le
  refine { ids := h.ids, system := h.system, ordered := h.ordered, queued := h.queued,
           recipients := h.recipients, refCount := h.refCount, last := h.last
           inbound := ?_, bound := ?_, delivered_lt := ?_, waiting_lt := ?_, distributed_lt := ?_
           freed := ?_, callbacks := ?_, quiet := ?_ }
  · have hlen : (q.enqueue event).events.length = q.events.length + 1 := by
      simp [Queues.enqueue]
    rw [hnext, hlen, range'_concat, one_mul, ← h.inbound, hle]
    rfl
  · simpa [Queues.enqueue] using h.bound
  · intro a id hid
    rw [hnext]
    exact h.delivered_lt a id hid
  · intro app happ id hid
    rw [hnext]
    exact h.waiting_lt app happ id hid
  · intro p hp
    rw [hnext]
    exact h.distributed_lt p hp
  · intro id
    rw [hnext]
    exact h.freed id
  · intro e he
    rcases mem_append.mp he with he | he
    · exact h.callbacks e he
    · rw [mem_singleton.mp he]
      exact hcallback
  · intro app happ id hid
    have hlt := h.waiting_lt app happ id hid
    rw [eventAt_enqueue q event (by omega)]
    exact h.quiet app happ id hid

open Nanoapp

/-- The nanoapps change, but not who they are nor their queues. -/
lemma Books.map (h : Books q owed) {f : Nanoapp → Nanoapp}
    (hid : ∀ app, (f app).instanceId = app.instanceId)
    (hqueue : ∀ app, (f app).eventQueue = app.eventQueue) :
    Books { q with nanoapps := q.nanoapps.map f } owed := by
  have hforall : ∀ {P : Nat → List Nat → Prop},
      (∀ app ∈ q.nanoapps, P app.instanceId app.eventQueue) →
        ∀ app ∈ q.nanoapps.map f, P app.instanceId app.eventQueue := by
    intro P hP app happ
    obtain ⟨app', happ', rfl⟩ := mem_map.mp happ
    rw [hid, hqueue]
    exact hP app' happ'
  have hwaits : ∀ a id, Queues.Waits { q with nanoapps := q.nanoapps.map f } a id ↔
      q.Waits a id := by
    intro a id
    constructor
    · rintro ⟨app, happ, ha, hmem⟩
      obtain ⟨app', happ', rfl⟩ := mem_map.mp happ
      exact ⟨app', happ', (hid app').symm.trans ha, hqueue app' ▸ hmem⟩
    · rintro ⟨app, happ, ha, hmem⟩
      exact ⟨f app, mem_map_of_mem happ, (hid app).trans ha, (hqueue app).symm ▸ hmem⟩
  refine { inbound := h.inbound, bound := h.bound, ordered := h.ordered,
           delivered_lt := h.delivered_lt, distributed_lt := h.distributed_lt, last := h.last,
           callbacks := h.callbacks
           ids := ?_, system := ?_, queued := ?_, waiting_lt := ?_, recipients := ?_
           refCount := ?_, freed := ?_, quiet := ?_ }
  · have heq : (q.nanoapps.map f).map instanceId = q.nanoapps.map instanceId := by
      rw [map_map]
      exact map_congr_left fun app _ => hid app
    exact heq ▸ h.ids
  · exact hforall (P := fun i _ => i ≠ kSystemInstanceId) h.system
  · exact hforall (P := fun i queue => (q.deliveredTo i ++ queue).Pairwise (· < ·)) h.queued
  · exact hforall (P := fun _ queue => ∀ id ∈ queue, id < q.next) h.waiting_lt
  · intro p hp a
    rw [h.recipients p hp a, ← hwaits a p.1]
    rfl
  · intro id
    rw [h.refCount id, countP_map]
    exact countP_congr fun app _ => by simp [hqueue]
  · intro id
    have hunqueued : (∀ app ∈ q.nanoapps.map f, id ∉ app.eventQueue) ↔
        ∀ app ∈ q.nanoapps, id ∉ app.eventQueue := by
      simp [hqueue]
    rw [hunqueued]
    exact h.freed id
  · exact hforall (P := fun _ queue => ∀ id ∈ queue, ∀ i allow,
      (q.eventAt id).freeCallback ≠ some (.unload i allow)) h.quiet

/-! ## The way of an event -/

/-- Nothing has happened to the event, nor to a later one. -/
structure Fresh (q : Queues) (id : Nat) : Prop where
  popped : id < q.next
  delivered_lt : ∀ a, ∀ i ∈ q.deliveredTo a, i < id
  waiting_lt : ∀ app ∈ q.nanoapps, ∀ i ∈ app.eventQueue, i < id
  distributed_lt : ∀ p ∈ q.distributed, p.1 < id

/-- An event that is popped is owed. -/
lemma Books.popped (h : Books q none) (hevents : q.events = id :: rest) :
    Books { q with events := rest } (some id) ∧ Fresh { q with events := rest } id := by
  have hrange := h.inbound
  rw [hevents, length_cons] at hrange
  obtain ⟨hid, hrest⟩ := List.cons.inj hrange
  have hbound := h.bound
  rw [hevents, length_cons] at hbound
  have hnext : next { q with events := rest } = q.next + 1 := by
    change q.posted.length - rest.length = q.posted.length - q.events.length + 1
    rw [hevents, length_cons]
    omega
  have hlt : ∀ {i : Nat}, i < q.next → i < q.next + 1 := Nat.lt_succ_of_lt
  refine ⟨{ ids := h.ids, system := h.system, ordered := h.ordered, queued := h.queued
            recipients := h.recipients, refCount := h.refCount, last := h.last
            callbacks := h.callbacks, quiet := h.quiet, bound := Nat.le_of_succ_le hbound
            inbound := ?_, delivered_lt := ?_, waiting_lt := ?_, distributed_lt := ?_
            freed := ?_ }, ?_⟩
  · rw [hnext]
    exact hrest
  · intro a i hi
    rw [hnext]
    exact hlt (h.delivered_lt a i hi)
  · intro app happ i hi
    rw [hnext]
    exact hlt (h.waiting_lt app happ i hi)
  · intro p hp
    rw [hnext]
    exact hlt (h.distributed_lt p hp)
  · intro i
    rw [hnext]
    refine (h.freed i).trans ?_
    constructor
    · rintro ⟨hi, hunqueued, -⟩
      refine ⟨hlt hi, hunqueued, ?_⟩
      rw [hid]
      exact fun heq => absurd (Option.some.inj heq) (ne_of_gt hi)
    · rintro ⟨hi, hunqueued, hne⟩
      refine ⟨?_, hunqueued, nofun⟩
      rw [hid] at hne
      have hne' : i ≠ q.next := fun heq => hne (congrArg some heq.symm)
      omega
  · subst hid
    exact ⟨hnext ▸ Nat.lt_succ_self _, h.delivered_lt, h.waiting_lt, h.distributed_lt⟩

/-- There is room in the queues of all nanoapps that the event is for. -/
def Queues.room (q : Queues) (id : Nat) : Bool :=
  q.nanoapps.all fun app =>
    !isFor (q.eventAt id) app || decide (app.eventQueue.length < kMaxPendingEvents)

lemma receive_instanceId (event : Event) (id : Nat) (app : Nanoapp) :
    (receive event id app).instanceId = app.instanceId := by
  unfold receive postToApp
  split
  · split <;> rfl
  · rfl

/-- With room, a nanoapp that an event is for has it last in its queue. -/
lemma receive_eventQueue (hroom : q.room id)
    (happ : app ∈ q.nanoapps) : (receive (q.eventAt id) id app).eventQueue =
      if isFor (q.eventAt id) app then app.eventQueue ++ [id] else app.eventQueue := by
  have hlt := all_eq_true.mp hroom app happ
  unfold receive postToApp
  split
  case isTrue hfor =>
    rw [hfor, Bool.not_true, Bool.false_or, decide_eq_true_eq] at hlt
    rw [if_pos hlt]
  case isFalse => rfl

lemma mem_receive (hroom : q.room id) (happ : app ∈ q.nanoapps) (i : Nat) :
    i ∈ (receive (q.eventAt id) id app).eventQueue ↔
      i ∈ app.eventQueue ∨ (i = id ∧ isFor (q.eventAt id) app) := by
  rw [receive_eventQueue hroom happ]
  split
  case isTrue hfor => simp [hfor]
  case isFalse hfor => simp [hfor]

/-- Only the event itself can be owed. -/
lemma owed_ne {i : Nat} (hi : i ≠ id) : (if count = 0 then some id else none) ≠ some i := by
  split
  · exact fun heq => hi (Option.some.inj heq).symm
  · exact nofun

/-- An event that is in no queue is unreferenced, so it is owed. -/
lemma owed_of_unqueued (hcount : count = apps.countP fun app => decide (id ∈ app.eventQueue))
    (hunqueued : ∀ app ∈ apps, id ∉ app.eventQueue)
    (howed : (if count = 0 then some id else none) ≠ some id) : False := by
  refine howed (if_pos ?_)
  rw [hcount, countP_eq_zero]
  intro app happ
  simpa using hunqueued app happ

lemma eventAt_mem (h : id < q.posted.length) : q.eventAt id ∈ q.posted := by
  unfold eventAt
  rw [getD_eq_getElem _ _ h]
  exact getElem_mem h

lemma Fresh.unqueued (hfresh : Fresh q id) : ∀ app ∈ q.nanoapps, id ∉ app.eventQueue :=
  fun app happ hmem => lt_irrefl id (hfresh.waiting_lt app happ id hmem)

/-- What waits for a nanoapp after an event has been handed out. -/
lemma waits_hand (hroom : q.room id) (a i : Nat) : (q.hand id).Waits a i ↔ q.Waits a i ∨
    i = id ∧ ∃ app ∈ q.nanoapps, app.instanceId = a ∧ isFor (q.eventAt id) app := by
  constructor
  · rintro ⟨app, happ, ha, hmem⟩
    obtain ⟨app', happ', rfl⟩ := mem_map.mp happ
    rw [receive_instanceId] at ha
    rcases (mem_receive hroom happ' i).mp hmem with hmem | ⟨hi, hfor⟩
    · exact .inl ⟨app', happ', ha, hmem⟩
    · exact .inr ⟨hi, app', happ', ha, hfor⟩
  · rintro (⟨app, happ, ha, hmem⟩ | ⟨hi, app, happ, ha, hfor⟩)
    · exact ⟨_, mem_map_of_mem happ, (receive_instanceId _ _ app).trans ha,
        (mem_receive hroom happ i).mpr (.inl hmem)⟩
    · exact ⟨_, mem_map_of_mem happ, (receive_instanceId _ _ app).trans ha,
        (mem_receive hroom happ i).mpr (.inr ⟨hi, hfor⟩)⟩

section Hand

variable (h : Books q (some id)) (hfresh : Fresh q id) (hroom : q.room id)

include h hfresh hroom

/-- An event that is handed out has as many references as queues. -/
lemma Books.refCount_hand (i : Nat) : (q.hand id).refCount i =
    (q.hand id).nanoapps.countP fun app => decide (i ∈ app.eventQueue) := by
  have hnone : q.refCount id = 0 := by
    rw [h.refCount id, countP_eq_zero]
    intro app happ
    simpa using hfresh.unqueued app happ
  change (if i = id then _ else _) = (q.nanoapps.map (receive (q.eventAt id) id)).countP _
  rw [countP_map]
  split
  case isTrue hi =>
    rw [hnone, zero_add, countP_filter]
    refine countP_congr fun app happ => ?_
    have hlt := all_eq_true.mp hroom app happ
    have hmem := mem_receive hroom happ i
    have hself := hfresh.unqueued app happ
    cases hfor : isFor (q.eventAt i) app <;> simp_all
  case isFalse hi =>
    rw [h.refCount i]
    refine countP_congr fun app happ => ?_
    have hmem := mem_receive hroom happ i
    simp_all

/-- The nanoapps that an event is handed to are those that get it or have got it. -/
lemma Books.recipients_hand : ∀ p ∈ (q.hand id).distributed, ∀ a,
    a ∈ p.2 ↔ p.1 ∈ (q.hand id).deliveredTo a ∨ (q.hand id).Waits a p.1 := by
  intro p hp a
  rw [waits_hand hroom]
  change _ ↔ p.1 ∈ q.deliveredTo a ∨ _
  rcases mem_append.mp hp with hp | hp
  · have hne : p.1 ≠ id := ne_of_lt (hfresh.distributed_lt p hp)
    rw [h.recipients p hp a]
    simp [hne]
  · rw [mem_singleton.mp hp]
    have hnot : id ∉ q.deliveredTo a := fun hmem =>
      lt_irrefl id (hfresh.delivered_lt a id hmem)
    have hnotWaits : ¬ q.Waits a id := fun ⟨app, happ, _, hmem⟩ =>
      hfresh.unqueued app happ hmem
    simp [hnot, hnotWaits, and_comm, and_left_comm]

/-- Nothing is freed by handing an event out, which may leave it owed. -/
lemma Books.freed_hand (i : Nat) : Action.freed i ∈ (q.hand id).history ↔ i < (q.hand id).next ∧
    (∀ app ∈ (q.hand id).nanoapps, i ∉ app.eventQueue) ∧
      (if (q.hand id).refCount id = 0 then some id else none) ≠ some i := by
  refine (h.freed i).trans ?_
  constructor
  · rintro ⟨hlt, hunqueued, hne⟩
    have hi : i ≠ id := fun heq => hne (congrArg some heq.symm)
    refine ⟨hlt, fun app happ hmem => ?_, owed_ne hi⟩
    obtain ⟨app', happ', rfl⟩ := mem_map.mp happ
    rcases (mem_receive hroom happ' i).mp hmem with hmem | ⟨heq, -⟩
    · exact hunqueued app' happ' hmem
    · exact hi heq
  · rintro ⟨hlt, hunqueued, howed⟩
    refine ⟨hlt, fun app happ hmem => ?_, fun heq => ?_⟩
    · exact hunqueued _ (mem_map_of_mem happ) ((mem_receive hroom happ i).mpr (.inl hmem))
    · obtain rfl := Option.some.inj heq
      exact owed_of_unqueued (h.refCount_hand hfresh hroom id) hunqueued howed

end Hand

/-- An event with a callback that unloads is for the system only. -/
lemma Books.not_isFor_of_unload (h : Books q owed) (hposted : id < q.posted.length)
    (happ : app ∈ q.nanoapps) {i : Nat} {allow : Bool}
    (hcallback : (q.eventAt id).freeCallback = some (.unload i allow)) :
    isFor (q.eventAt id) app = false := by
  have htarget := h.callbacks _ (eventAt_mem hposted) i allow hcallback
  have hsystem := h.system app happ
  refine eq_false_of_ne_true fun hfor => ?_
  unfold isFor at hfor
  rw [htarget] at hfor
  simp only [Bool.or_eq_true, Bool.and_eq_true, beq_iff_eq] at hfor
  rcases hfor with ⟨hbroadcast, -⟩ | hself
  · exact absurd hbroadcast (by decide)
  · exact hsystem hself.symm

/-- An event that is handed out waits for the nanoapps it is for; if no queue has it, it is
still owed. -/
lemma Books.hand (h : Books q (some id)) (hfresh : Fresh q id) (hroom : q.room id)
    (hposted : id < q.posted.length) :
    Books (q.hand id) (if (q.hand id).refCount id = 0 then some id else none) := by
  refine { inbound := h.inbound, bound := h.bound, ordered := h.ordered,
           delivered_lt := h.delivered_lt, last := h.last, callbacks := h.callbacks
           refCount := h.refCount_hand hfresh hroom
           recipients := h.recipients_hand hfresh hroom, freed := h.freed_hand hfresh hroom
           ids := ?_, system := ?_, queued := ?_, waiting_lt := ?_, distributed_lt := ?_
           quiet := ?_ }
  · have heq : (q.nanoapps.map (receive (q.eventAt id) id)).map instanceId =
        q.nanoapps.map instanceId := by
      rw [map_map]
      exact map_congr_left fun app _ => receive_instanceId _ _ app
    exact heq ▸ h.ids
  · intro app happ
    obtain ⟨app', happ', rfl⟩ := mem_map.mp happ
    rw [receive_instanceId]
    exact h.system app' happ'
  · intro app happ
    obtain ⟨app', happ', rfl⟩ := mem_map.mp happ
    have hold := h.queued app' happ'
    rw [receive_instanceId, receive_eventQueue hroom happ']
    split
    · rw [← append_assoc, pairwise_append]
      refine ⟨hold, pairwise_singleton _ _, fun i hi j hj => ?_⟩
      rw [mem_singleton.mp hj]
      rcases mem_append.mp hi with hi | hi
      · exact hfresh.delivered_lt _ i hi
      · exact hfresh.waiting_lt app' happ' i hi
    · exact hold
  · intro app happ i hi
    obtain ⟨app', happ', rfl⟩ := mem_map.mp happ
    rcases (mem_receive hroom happ' i).mp hi with hi | ⟨rfl, -⟩
    · exact h.waiting_lt app' happ' i hi
    · exact hfresh.popped
  · intro p hp
    rcases mem_append.mp hp with hp | hp
    · exact h.distributed_lt p hp
    · rw [mem_singleton.mp hp]
      exact hfresh.popped
  · intro app happ i hi j allow
    obtain ⟨app', happ', rfl⟩ := mem_map.mp happ
    rcases (mem_receive hroom happ' i).mp hi with hi | ⟨rfl, hfor⟩
    · exact h.quiet app' happ' i hi j allow
    · exact fun hcallback =>
        Bool.false_ne_true ((h.not_isFor_of_unload hposted happ' hcallback).symm.trans hfor)

lemma deliveredTo_logFreed (q : Queues) (id a : Nat) :
    (q.logFreed id).deliveredTo a = q.deliveredTo a := by
  simp [deliveredTo, logFreed]

lemma deliveredTo_processNextEvent (q : Queues) (index : Nat) (app : Nanoapp) (id : Nat)
    (rest : List Nat) (a : Nat) : (q.processNextEvent index app id rest).deliveredTo a =
      if app.instanceId = a then q.deliveredTo a ++ [id] else q.deliveredTo a := by
  unfold deliveredTo processNextEvent
  split
  case isTrue h => simp [h]
  case isFalse h => simp [h]

/-- An event that is owed is freed. -/
lemma Books.logFreed (h : Books q (some id)) (hpopped : id < q.next)
    (hunqueued : ∀ app ∈ q.nanoapps, id ∉ app.eventQueue) : Books (q.logFreed id) none := by
  have hdel := deliveredTo_logFreed q id
  refine { ids := h.ids, system := h.system, inbound := h.inbound, bound := h.bound
           waiting_lt := h.waiting_lt, distributed_lt := h.distributed_lt, refCount := h.refCount
           callbacks := h.callbacks, quiet := h.quiet
           ordered := ?_, queued := ?_, delivered_lt := ?_, recipients := ?_, freed := ?_
           last := ?_ }
  · intro a
    rw [hdel]
    exact h.ordered a
  · intro app happ
    rw [hdel]
    exact h.queued app happ
  · intro a i hi
    rw [hdel] at hi
    exact h.delivered_lt a i hi
  · intro p hp a
    rw [hdel]
    exact h.recipients p hp a
  · intro i
    have hmem : Action.freed i ∈ (q.logFreed id).history ↔ Action.freed i ∈ q.history ∨ i = id := by
      simp [Queues.logFreed]
    rw [hmem, h.freed i]
    constructor
    · rintro (⟨hlt, hun, -⟩ | rfl)
      · exact ⟨hlt, hun, nofun⟩
      · exact ⟨hpopped, hunqueued, nofun⟩
    · rintro ⟨hlt, hun, -⟩
      by_cases hi : i = id
      · exact .inr hi
      · exact .inl ⟨hlt, hun, fun heq => hi (Option.some.inj heq).symm⟩
  · refine pairwise_append.mpr ⟨h.last, pairwise_singleton _ _, ?_⟩
    intro x hx y hy i hxi
    rw [mem_singleton.mp hy]
    subst hxi
    exact fun heq => ((h.freed i).mp hx).2.2 (congrArg some heq)

lemma set_split (hget : apps[index]? = some app) (app' : Nanoapp) :
    ∃ before after, apps = before ++ app :: after ∧
      apps.set index app' = before ++ app' :: after := by
  obtain ⟨hlt, heq⟩ := List.getElem?_eq_some_iff.mp hget
  refine ⟨apps.take index, apps.drop (index + 1), ?_, ?_⟩
  · rw [← heq, getElem_cons_drop, take_append_drop]
  · exact set_eq_take_append_cons_drop ▸ if_pos hlt

/-- In a list of nanoapps with different instance IDs, one is replaced. -/
lemma mem_replaced {before after : List Nanoapp}
    (hids : ((before ++ app :: after).map instanceId).Nodup) (app' x : Nanoapp) :
    x ∈ before ++ app' :: after ↔
      x = app' ∨ x ∈ before ++ app :: after ∧ x.instanceId ≠ app.instanceId := by
  rw [map_append, map_cons, perm_middle.nodup_iff, nodup_cons, ← map_append] at hids
  rw [perm_middle.mem_iff, perm_middle.mem_iff, mem_cons, mem_cons]
  constructor
  · exact Or.imp_right fun hx => ⟨.inr hx, fun heq => hids.1 (heq ▸ mem_map_of_mem hx)⟩
  · exact Or.imp_right fun h => h.1.resolve_left fun heq => h.2 (heq ▸ rfl)

section ProcessNextEvent

variable (h : Books q none) (hget : q.nanoapps[index]? = some app)
  (hqueue : app.eventQueue = id :: rest)

include h hget

/-- The nanoapp has one event less in its queue. -/
lemma Books.mem_processNextEvent (id : Nat) (rest : List Nat) (x : Nanoapp) :
    x ∈ (q.processNextEvent index app id rest).nanoapps ↔
      x = { app with eventQueue := rest } ∨ x ∈ q.nanoapps ∧ x.instanceId ≠ app.instanceId := by
  obtain ⟨before, after, happs, hset⟩ := set_split hget { app with eventQueue := rest }
  change x ∈ q.nanoapps.set index _ ↔ _
  rw [hset, happs]
  exact mem_replaced (happs ▸ h.ids) _ x

include hqueue

/-- What has been delivered to the nanoapp, the event and the rest of the queue are in order. -/
lemma Books.line : (q.deliveredTo app.instanceId ++ [id] ++ rest).Pairwise (· < ·) := by
  have hline := h.queued app (mem_of_getElem? hget)
  rwa [hqueue, append_cons] at hline

lemma Books.not_mem_rest : id ∉ rest := fun hmem =>
  lt_irrefl id ((pairwise_append.mp (h.line hget hqueue)).2.2 id (by simp) id hmem)

/-- The event is in one queue less. -/
lemma Books.refCount_processNextEvent (i : Nat) :
    (q.processNextEvent index app id rest).refCount i =
      (q.processNextEvent index app id rest).nanoapps.countP
        fun x => decide (i ∈ x.eventQueue) := by
  obtain ⟨before, after, happs, hset⟩ := set_split hget { app with eventQueue := rest }
  have hrest := h.not_mem_rest hget hqueue
  change (if i = id then q.refCount id - 1 else q.refCount i) = (q.nanoapps.set index _).countP _
  rw [hset, h.refCount id, h.refCount i, happs]
  simp only [countP_append, countP_cons, hqueue]
  by_cases hi : i = id
  · subst hi
    simp [hrest]
  · simp [hi]

/-- What waited for a nanoapp waits for it still, or has been delivered to it. -/
lemma Books.waits_processNextEvent (a i : Nat) :
    i ∈ (q.processNextEvent index app id rest).deliveredTo a ∨
        (q.processNextEvent index app id rest).Waits a i ↔
      i ∈ q.deliveredTo a ∨ q.Waits a i := by
  have happ := mem_of_getElem? hget
  have hmem := h.mem_processNextEvent hget id rest
  rw [deliveredTo_processNextEvent]
  split
  case isTrue ha =>
    subst ha
    have hwaits : (q.processNextEvent index app id rest).Waits app.instanceId i ↔ i ∈ rest := by
      constructor
      · rintro ⟨x, hx, heq, hi⟩
        rcases (hmem x).mp hx with rfl | ⟨-, hne⟩
        · exact hi
        · exact absurd heq hne
      · exact fun hi => ⟨_, (hmem _).mpr (.inl rfl), rfl, hi⟩
    have hself : q.Waits app.instanceId i ↔ i = id ∨ i ∈ rest := by
      rw [← mem_cons, ← hqueue]
      constructor
      · rintro ⟨x, hx, heq, hi⟩
        exact inj_on_of_nodup_map h.ids hx happ heq ▸ hi
      · exact fun hi => ⟨app, happ, rfl, hi⟩
    rw [hwaits, hself, mem_append, mem_singleton, or_assoc]
  case isFalse ha =>
    refine or_congr_right ⟨?_, ?_⟩
    · rintro ⟨x, hx, rfl, hi⟩
      rcases (hmem x).mp hx with rfl | ⟨hx', -⟩
      · exact absurd rfl ha
      · exact ⟨x, hx', rfl, hi⟩
    · rintro ⟨x, hx, rfl, hi⟩
      exact ⟨x, (hmem x).mpr (.inr ⟨hx, Ne.symm ha⟩), rfl, hi⟩

lemma Books.not_freed : Action.freed id ∉ q.history := fun hfreed =>
  ((h.freed id).mp hfreed).2.1 app (mem_of_getElem? hget) (hqueue ▸ mem_cons_self)

/-- Nothing is freed by a delivery, which may leave the event owed. -/
lemma Books.freed_processNextEvent (i : Nat) :
    Action.freed i ∈ (q.processNextEvent index app id rest).history ↔
      i < (q.processNextEvent index app id rest).next ∧
        (∀ x ∈ (q.processNextEvent index app id rest).nanoapps, i ∉ x.eventQueue) ∧
        (if (q.processNextEvent index app id rest).refCount id = 0 then some id else none) ≠
          some i := by
  have happ := mem_of_getElem? hget
  have hmem := h.mem_processNextEvent hget id rest
  have hhistory : Action.freed i ∈ (q.processNextEvent index app id rest).history ↔
      Action.freed i ∈ q.history := by
    simp [Queues.processNextEvent]
  rw [hhistory]
  by_cases hi : i = id
  · -- the event was in the queue; if it is in none now, it is owed
    subst hi
    exact ⟨fun hfreed => absurd hfreed (h.not_freed hget hqueue),
      fun ⟨_, hunqueued, howed⟩ =>
        (owed_of_unqueued (h.refCount_processNextEvent hget hqueue i) hunqueued howed).elim⟩
  · rw [h.freed i]
    constructor
    · rintro ⟨hlt, hunqueued, -⟩
      refine ⟨hlt, fun x hx hmem' => ?_, owed_ne hi⟩
      rcases (hmem x).mp hx with rfl | ⟨hx', -⟩
      · exact hunqueued app happ (hqueue ▸ .tail _ hmem')
      · exact hunqueued x hx' hmem'
    · rintro ⟨hlt, hunqueued, -⟩
      refine ⟨hlt, fun x hx hmem' => ?_, nofun⟩
      by_cases hx' : x.instanceId = app.instanceId
      · rw [inj_on_of_nodup_map h.ids hx happ hx', hqueue, mem_cons] at hmem'
        rcases hmem' with hmem' | hmem'
        · exact hi hmem'
        · exact hunqueued _ ((hmem _).mpr (.inl rfl)) hmem'
      · exact hunqueued x ((hmem x).mpr (.inr ⟨hx, hx'⟩)) hmem'

/-- An event that is delivered is owed when no other queue has it. -/
lemma Books.processNextEvent :
    Books (q.processNextEvent index app id rest)
      (if (q.processNextEvent index app id rest).refCount id = 0 then some id else none) := by
  have happ := mem_of_getElem? hget
  have hmem := h.mem_processNextEvent hget id rest
  have hdel := deliveredTo_processNextEvent q index app id rest
  have hline := h.line hget hqueue
  refine { inbound := h.inbound, bound := h.bound, distributed_lt := h.distributed_lt
           callbacks := h.callbacks
           refCount := h.refCount_processNextEvent hget hqueue
           freed := h.freed_processNextEvent hget hqueue
           recipients := fun p hp a =>
             (h.recipients p hp a).trans (h.waits_processNextEvent hget hqueue a p.1).symm
           ids := ?_, system := ?_, ordered := ?_, queued := ?_, delivered_lt := ?_
           waiting_lt := ?_, last := ?_, quiet := ?_ }
  · obtain ⟨before, after, happs, hset⟩ := set_split hget { app with eventQueue := rest }
    have hnodup := h.ids
    change ((q.nanoapps.set index _).map instanceId).Nodup
    rw [happs, map_append] at hnodup
    rw [hset, map_append]
    exact hnodup
  · intro x hx
    rcases (hmem x).mp hx with rfl | ⟨hx', -⟩
    · exact h.system app happ
    · exact h.system x hx'
  · intro a
    rw [hdel]
    split
    case isTrue ha => exact ha ▸ (pairwise_append.mp hline).1
    case isFalse => exact h.ordered a
  · intro x hx
    rw [hdel]
    rcases (hmem x).mp hx with rfl | ⟨hx', hne⟩
    · rw [if_pos rfl]
      exact hline
    · rw [if_neg hne.symm]
      exact h.queued x hx'
  · intro a i hi
    rw [hdel] at hi
    split at hi
    · rcases mem_append.mp hi with hi | hi
      · exact h.delivered_lt a i hi
      · rw [mem_singleton.mp hi]
        exact h.waiting_lt app happ id (hqueue ▸ mem_cons_self)
    · exact h.delivered_lt a i hi
  · intro x hx i hi
    rcases (hmem x).mp hx with rfl | ⟨hx', -⟩
    · exact h.waiting_lt app happ i (hqueue ▸ .tail _ hi)
    · exact h.waiting_lt x hx' i hi
  · refine pairwise_append.mpr ⟨h.last, pairwise_singleton _ _, ?_⟩
    intro x hx y hy i hxi
    rw [mem_singleton.mp hy]
    rintro rfl
    exact h.not_freed hget hqueue (hxi ▸ hx)
  · intro x hx i hi
    rcases (hmem x).mp hx with rfl | ⟨hx', -⟩
    · exact h.quiet app happ i (hqueue ▸ .tail _ hi)
    · exact h.quiet x hx' i hi

end ProcessNextEvent

/-- Nanoapps whose queues are empty may go. -/
lemma Books.unload (h : Books q owed) (hdrained : q.Drained)
    (hsub : apps.Sublist q.nanoapps) : Books { q with nanoapps := apps } owed := by
  have hempty : ∀ app ∈ apps, app.eventQueue = [] := fun app happ =>
    hdrained app (hsub.subset happ)
  have hnone : ∀ {l : List Nanoapp}, (∀ app ∈ l, app.eventQueue = []) → ∀ id,
      l.countP (fun app => decide (id ∈ app.eventQueue)) = 0 := by
    intro l hl id
    rw [countP_eq_zero]
    intro app happ
    simp [hl app happ]
  have hwaits : ∀ a id, ¬ q.Waits a id := fun a id ⟨app, happ, _, hmem⟩ => by
    rw [hdrained app happ] at hmem
    cases hmem
  refine { inbound := h.inbound, bound := h.bound, ordered := h.ordered
           delivered_lt := h.delivered_lt, distributed_lt := h.distributed_lt, last := h.last
           callbacks := h.callbacks
           ids := h.ids.sublist (hsub.map _)
           system := fun app happ => h.system app (hsub.subset happ)
           queued := fun app happ => h.queued app (hsub.subset happ)
           waiting_lt := fun app happ => h.waiting_lt app (hsub.subset happ)
           quiet := fun app happ => h.quiet app (hsub.subset happ)
           recipients := ?_, refCount := ?_, freed := ?_ }
  · intro p hp a
    rw [h.recipients p hp a]
    have hnew : ¬ Queues.Waits { q with nanoapps := apps } a p.1 :=
      fun ⟨app, happ, ha, hmem⟩ => hwaits a p.1 ⟨app, hsub.subset happ, ha, hmem⟩
    constructor
    · rintro (hdel | hwait)
      · exact .inl hdel
      · exact absurd hwait (hwaits a p.1)
    · rintro (hdel | hwait)
      · exact .inl hdel
      · exact absurd hwait hnew
  · intro id
    rw [hnone hempty id]
    exact (h.refCount id).trans (hnone hdrained id)
  · intro id
    refine (h.freed id).trans ?_
    constructor
    · rintro ⟨hlt, hun, howed⟩
      exact ⟨hlt, fun app happ => hun app (hsub.subset happ), howed⟩
    · rintro ⟨hlt, -, howed⟩
      refine ⟨hlt, fun app happ hmem => ?_, howed⟩
      rw [hdrained app happ] at hmem
      cases hmem

end Chre.EventLoop
