import AlpsSystem.Lib.Runs
import AlpsSystem.LibUtils.VectorMethods

/-!
# Vectors are values

Any number of vectors on one heap are constructed, copied and assigned to each other, and changed by
calls of their methods.  `specStep` says what each of them should hold: the list that its own
operations lead to, as if nothing were shared.

* `Valid` — the invariant; one operation keeps it (`step_spec`).
* `values_of_safe` — vectors are values in every run of safe operations.
-/

namespace LibUtils

open SharedBuffer Runs List

variable {α : Type}

structure State (α : Type) where
  heap : Heap α
  vectors : List VectorImpl

inductive Op (α : Type)
  | construct
  | copyConstruct (rhs : Nat)
  | assign (this rhs : Nat)
  | call (this : Nat) (m : Method α)
  | insertVectorAt (this vector : Nat) (index : BitVec 64)

/-- A method runs on one of the vectors. -/
def withSelf (s : State α) (this : Nat) (f : Self α → Except Stop (Self α)) :
    Except Stop (State α) :=
  match s.vectors[this]? with
  | none => .ok s
  | some v => do
    let self ← f { v with heap := s.heap }
    pure { heap := self.heap, vectors := s.vectors.set this self.toVectorImpl }

def step (c : Config α) (s : State α) : Op α → Except Stop (State α)
  | .construct => .ok { s with vectors := s.vectors ++ [{}] }
  | .copyConstruct rhs =>
    match s.vectors[rhs]? with
    | none => .ok s
    | some v => do
      let self ← copyConstruct s.heap v
      pure { heap := self.heap, vectors := s.vectors ++ [self.toVectorImpl] }
  | .assign this rhs =>
    match s.vectors[rhs]? with
    | none => .ok s
    | some v => if this = rhs then .ok s else withSelf s this fun self => assign c self v
  | .call this m => withSelf s this fun self => m.run c self
  | .insertVectorAt this vector index =>
    match s.vectors[vector]? with
    | none => .ok s
    | some v => withSelf s this fun self => Prod.fst <$> insertVectorAt c self v index.toNat

/-- The same operations on lists. -/
def specStep (c : Config α) (lists : List (List α)) : Op α → List (List α)
  | .construct => lists ++ [[]]
  | .copyConstruct rhs => lists ++ lists[rhs]?.toList
  | .assign this rhs =>
    match lists[rhs]? with
    | none => lists
    | some l => lists.modify this fun _ => l
  | .call this m => lists.modify this fun l => m.items c l
  | .insertVectorAt this vector index =>
    match lists[vector]? with
    | none => lists
    | some array => lists.modify this fun l => Items.insertArrayAt l array index.toNat

/-- How many vectors use a buffer. -/
def users (vectors : List VectorImpl) (b : Nat) : Nat :=
  vectors.countP fun v => v.storage = some b

/-- One more user of the buffer of `v` can be counted. -/
def countable (vectors : List VectorImpl) (v : VectorImpl) : Bool :=
  match v.storage with
  | some b => users vectors b + 1 < 2 ^ 31
  | none => true

/-- What is asked of an operation, in the state before it. -/
def Op.safe (c : Config α) (s : State α) : Op α → Bool
  | construct => true
  | copyConstruct rhs => s.vectors[rhs]?.all (countable s.vectors)
  | assign this rhs => s.vectors[rhs]?.all (countable (s.vectors.set this {}))
  | call this m => s.vectors[this]?.all fun v => m.safe c { v with heap := s.heap }
  | insertVectorAt this vector index =>
    s.vectors[this]?.all fun v => s.vectors[vector]?.all fun w =>
      Method.movesApart c { v with heap := s.heap } index.toNat w.count

/-- A vector is not inserted into itself. -/
def Op.apart : Op α → Bool
  | insertVectorAt this vector _ => this ≠ vector
  | _ => true

/-- The items that a reader of the vector finds. -/
def itemsOf (c : Config α) (heap : Heap α) (v : VectorImpl) : Option (List α) :=
  match v.storage with
  | none => if v.count = 0 then some [] else none
  | some b =>
    match heap.content b with
    | some buffer =>
      if v.count ≤ slotsOf c buffer then buffer.items.read 0 v.count else none
    | none => none

abbrev Machine (α : Type) := Except Stop (State α) × List (List α)

/-- A call that does not return is the last one. -/
def bothStep (c : Config α) (m : Machine α) (op : Op α) : Machine α :=
  (m.1 >>= fun s => step c s op, specStep c m.2 op)

def initial : Machine α := (.ok { heap := .empty, vectors := [] }, [])

/-- All calls have returned, every vector holds its list, and every buffer counts its vectors. -/
def Values (c : Config α) (m : Machine α) : Prop :=
  match m.1 with
  | .ok s => s.vectors.map (itemsOf c s.heap) = m.2.map some ∧ s.heap.Counted (users s.vectors)
  | .error _ => False

def safeStep (c : Config α) (m : Machine α) (op : Op α) : Bool :=
  match m.1 with
  | .ok s => op.safe c s
  | .error _ => true

/-- The memory that a call asks for can be had. -/
def allocates (c : Config α) (m : Machine α) (op : Op α) : Bool :=
  match (bothStep c m op).1 with
  | .error .noMemory => false
  | _ => true

structure Valid (c : Config α) (s : State α) (lists : List (List α)) : Prop where
  counts : Counts s.heap (users s.vectors)
  length : s.vectors.length = lists.length
  stored : ∀ (i : Nat) (v : VectorImpl) (l : List α), s.vectors[i]? = some v → lists[i]? = some l →
    v.count = l.length ∧ Stored c s.heap v.storage l

variable {c : Config α} {s : State α} {lists : List (List α)} {this : Nat} {v : VectorImpl}
  {l l' : List α} {vectors : List VectorImpl} {b : Nat}

/-! ## Users -/

lemma users_append : users (vectors ++ [v]) b = users vectors b + uses v.storage b := by
  by_cases h : v.storage = some b <;> simp [users, uses]

lemma users_set (hthis : this < vectors.length) (v : VectorImpl) :
    users (vectors.set this v) b = users (vectors.set this {}) b + uses v.storage b := by
  simp only [set_eq_take_append_cons_drop, if_pos hthis]
  by_cases h : v.storage = some b
  · simp [users, h]
    omega
  · simp [users, uses, countP_append, h]

lemma users_self (hv : vectors[this]? = some v) :
    users vectors b = users (vectors.set this {}) b + uses v.storage b := by
  obtain ⟨hthis, hv⟩ := List.getElem?_eq_some_iff.mp hv
  have hset := users_set (b := b) hthis v
  rwa [← hv, set_getElem_self, hv] at hset

/-- Another vector's buffer has a user. -/
lemma users_pos {i : Nat} (hi : vectors[i]? = some v) (hb : v.storage = some b) (hne : i ≠ this) :
    0 < users (vectors.set this {}) b := by
  refine countP_pos_iff.mpr ⟨v, ?_, by simpa using hb⟩
  refine mem_of_getElem? (i := i) ?_
  rw [List.getElem?_set_ne hne.symm]
  exact hi

/-! ## One vector among others -/

section

variable (h : Valid c s lists)

include h

lemma Valid.sees (hv : s.vectors[this]? = some v) (hl : lists[this]? = some l) :
    Sees c { v with heap := s.heap } (users (s.vectors.set this {})) l := by
  obtain ⟨hcount, hstored⟩ := h.stored this v l hv hl
  refine ⟨?_, hcount, hstored⟩
  have hcounts := h.counts
  rwa [show users s.vectors = fun x => users (s.vectors.set this {}) x + uses v.storage x from
    funext fun _ => users_self hv] at hcounts

/-- A vector changes, and the others still hold their lists. -/
lemma Valid.set (hv : s.vectors[this]? = some v) {self : Self α}
    (hself : Becomes c { v with heap := s.heap } (users (s.vectors.set this {})) l' self) :
    Valid c { heap := self.heap, vectors := s.vectors.set this self.toVectorImpl }
      (lists.set this l') := by
  obtain ⟨hthis, -⟩ := List.getElem?_eq_some_iff.mp hv
  refine ⟨?_, by simpa using h.length, fun i w l hw hl => ?_⟩
  · have hcounts := hself.sees.counts
    rwa [← show users (s.vectors.set this self.toVectorImpl) = _ from
      funext fun _ => users_set hthis _] at hcounts
  · by_cases hi : i = this
    · subst hi
      rw [List.getElem?_set_self hthis] at hw
      rw [List.getElem?_set_self (h.length ▸ hthis)] at hl
      obtain rfl := Option.some.inj hw
      obtain rfl := Option.some.inj hl
      exact ⟨hself.sees.count, hself.sees.stored⟩
    · rw [List.getElem?_set_ne (Ne.symm hi)] at hw hl
      obtain ⟨hcount, hstored⟩ := h.stored i w l hw hl
      exact ⟨hcount, hstored.congr fun b hb => hself.keeps b (users_pos hw hb hi)⟩

omit h in
theorem modify_of_getElem? {f : List α → List α} (hl : lists[this]? = some l) :
    lists.modify this f = lists.set this (f l) := by
  obtain ⟨hthis, rfl⟩ := List.getElem?_eq_some_iff.mp hl
  exact modify_eq_set_get f hthis

/-- The list of a vector. -/
lemma Valid.exists_list (hv : s.vectors[this]? = some v) : ∃ l, lists[this]? = some l := by
  obtain ⟨hthis, -⟩ := List.getElem?_eq_some_iff.mp hv
  exact ⟨_, List.getElem?_eq_getElem (h.length ▸ hthis)⟩

lemma Valid.no_list (hv : s.vectors[this]? = none) : lists[this]? = none := by
  rw [List.getElem?_eq_none_iff] at hv ⊢
  rwa [← h.length]

lemma Valid.withSelf (f : Self α → Except Stop (Self α)) (g : List α → List α)
    (hf : ∀ v l, s.vectors[this]? = some v → lists[this]? = some l →
      Returns (f { v with heap := s.heap })
        (Becomes c { v with heap := s.heap } (users (s.vectors.set this {})) (g l))) :
    Returns (withSelf s this f) fun s' => Valid c s' (lists.modify this g) := by
  rw [LibUtils.withSelf]
  cases hv : s.vectors[this]? with
  | none =>
    rw [modify_eq_self (List.getElem?_eq_none_iff.mp (h.no_list hv))]
    exact h
  | some v =>
    obtain ⟨l, hl⟩ := h.exists_list hv
    rw [modify_of_getElem? hl]
    exact (hf v _ hv hl).bind fun self hself => h.set hv hself

/-- A new vector joins the others. -/
lemma Valid.append {heap : Heap α}
    (hcounts : Counts heap fun x => users s.vectors x + uses v.storage x)
    (hcontent : ∀ x, heap.content x = s.heap.content x) (hcount : v.count = l.length)
    (hstored : Stored c s.heap v.storage l) :
    Valid c { heap, vectors := s.vectors ++ [v] } (lists ++ [l]) := by
  have hlength := h.length
  refine ⟨?_, by simp [hlength], fun i w l' hw hl' => ?_⟩
  · rwa [← show users (s.vectors ++ [v]) = _ from funext fun _ => users_append] at hcounts
  · have hkept : ∀ {storage} {l : List α}, Stored c s.heap storage l → Stored c heap storage l :=
      fun hstored => hstored.congr fun b _ => hcontent b
    rcases Nat.lt_trichotomy i s.vectors.length with hi | hi | hi
    · rw [List.getElem?_append_left hi] at hw
      rw [List.getElem?_append_left (by omega)] at hl'
      exact (h.stored i w l' hw hl').imp_right hkept
    · obtain rfl : v = w := by simpa [hi] using hw
      obtain rfl : l = l' := by simpa [hi, hlength] using hl'
      exact ⟨hcount, hkept hstored⟩
    · rw [List.getElem?_eq_none (by simp; omega)] at hw
      exact absurd hw nofun

end

lemma users_pos_self (hv : vectors[this]? = some v) (hb : v.storage = some b) :
    0 < users vectors b := by
  rw [users_self hv, hb, uses_self]
  omega

lemma countable_iff :
    countable vectors v ↔ ∀ b, v.storage = some b → users vectors b + 1 < 2 ^ 31 := by
  cases hb : v.storage with
  | none | some => simp [countable, hb]

open Items Op

/-- **One operation** keeps the lists and the counts. -/
theorem step_spec (h : Valid c s lists) (op : Op α) (hapart : op.apart) (hsafe : op.safe c s) :
    Returns (step c s op) fun s' => Valid c s' (specStep c lists op) := by
  cases op with
  | construct => exact h.append h.counts (fun _ => rfl) rfl rfl
  | copyConstruct rhs =>
    rw [step, specStep]
    cases hv : s.vectors[rhs]? with
    | none =>
      rw [h.no_list hv]
      simpa using h
    | some v =>
      obtain ⟨l, hl⟩ := h.exists_list hv
      have hcountable : countable s.vectors v := by simpa [safe, hv] using hsafe
      obtain ⟨heap, hcopy, hcounts, hcontent⟩ := copyConstruct_spec v h.counts
        fun b hb => ⟨users_pos_self hv hb, countable_iff.mp hcountable b hb⟩
      obtain ⟨hcount, hstored⟩ := h.stored rhs v l hv hl
      simp only [hcopy, hl]
      exact h.append hcounts hcontent hcount hstored
  | assign this rhs =>
    rw [step, specStep]
    cases hv : s.vectors[rhs]? with
    | none =>
      rw [h.no_list hv]
      exact h
    | some v =>
      obtain ⟨l, hl⟩ := h.exists_list hv
      have hcountable : countable (s.vectors.set this {}) v := by simpa [safe, hv] using hsafe
      obtain ⟨hcount, hstored⟩ := h.stored rhs v l hv hl
      rw [hl]
      refine ensures_ite (fun hself => ?_) fun hother => ?_
      · subst hself
        dsimp only
        rw [modify_of_getElem? hl]
        obtain ⟨hthis, rfl⟩ := List.getElem?_eq_some_iff.mp hl
        simpa using h
      · refine h.withSelf (fun self => assign c self v) (fun _ => l) fun w lw hw hlw => ?_
        exact assign_spec (h.sees hw hlw) hcount hstored fun b hb =>
          ⟨users_pos hv hb (Ne.symm hother), countable_iff.mp hcountable b hb⟩
  | call this m =>
    refine h.withSelf (fun self => m.run c self) (fun l => m.items c l) fun v l hv hl => ?_
    exact method_spec (h.sees hv hl) m (by simpa [safe, hv] using hsafe)
  | insertVectorAt this vector index =>
    rw [step, specStep]
    cases hw : s.vectors[vector]? with
    | none =>
      rw [h.no_list hw]
      exact h
    | some w =>
      obtain ⟨array, harray⟩ := h.exists_list hw
      obtain ⟨hcount, hstored⟩ := h.stored vector w array hw harray
      have hne : vector ≠ this := Ne.symm (by simpa [apart] using hapart)
      rw [harray]
      refine h.withSelf _ (fun l => Items.insertArrayAt l array index.toNat) fun v l hv hl => ?_
      have hmove : Method.movesApart c { v with heap := s.heap } index.toNat w.count := by
        simpa [safe, hv, hw] using hsafe
      simp only [Method.movesApart, Bool.or_eq_true, decide_eq_true_eq, or_assoc] at hmove
      exact (insertVectorAt_spec (h.sees hv hl) index.toNat hcount hstored
        (fun b hb => users_pos hw hb hne) hmove).map

/-! ## Runs -/

lemma valid_initial : Valid c { heap := .empty, vectors := [] } [] :=
  ⟨⟨RefHeap.counted_empty, fun _ => Nat.two_pow_pos 31⟩, rfl, nofun⟩

lemma itemsOf_eq {heap : Heap α} (hcount : v.count = l.length)
    (hstored : Stored c heap v.storage l) : itemsOf c heap v = some l := by
  rw [itemsOf]
  cases hb : v.storage with
  | none =>
    rw [hb] at hstored
    obtain rfl : l = [] := hstored
    exact if_pos hcount
  | some b =>
    rw [hb] at hstored
    obtain ⟨buffer, hcontent, -, hroom, hholds⟩ := hstored
    simp only [hcontent, hcount, if_pos hroom, Slots.read_eq_some.mpr hholds]

lemma Valid.values (h : Valid c s lists) : Values c (.ok s, lists) := by
  refine ⟨ext_getElem? fun i => ?_, h.counts.counted⟩
  rw [List.getElem?_map, List.getElem?_map]
  cases hv : s.vectors[i]? with
  | none => rw [h.no_list hv]; rfl
  | some v =>
    obtain ⟨l, hl⟩ := h.exists_list hv
    obtain ⟨hcount, hstored⟩ := h.stored i v l hv hl
    rw [hl, Option.map_some, Option.map_some, itemsOf_eq hcount hstored]

/-- **Vectors are values.**  In every run in which memory can be had, vectors are not inserted into
themselves and every operation is safe, every vector holds the list of its own operations and
every buffer counts its users, in every state. -/
theorem values_of_safe (c : Config α) (ops : List (Op α)) (hapart : ∀ op ∈ ops, op.apart)
    (halloc : EachStep (fun m op => allocates c m op) (bothStep c) initial ops)
    (hsafe : EachStep (fun m op => safeStep c m op) (bothStep c) initial ops) :
    Throughout (Values c) (bothStep c) initial ops := by
  have heach : EachStep (fun _ op => op.apart) (bothStep c) initial ops :=
    eachStep_of_forall ops initial hapart
  have hall := heach.and (halloc.and hsafe)
  refine (throughout_of_inv (I := fun m : Machine α => ∃ s, m.1 = .ok s ∧ Valid c s m.2)
    ?_ ops initial ⟨_, rfl, valid_initial⟩ hall).mono ?_
  · rintro ⟨_, lists⟩ op ⟨s, rfl, hvalid⟩ ⟨hapart, halloc, hsafe⟩
    have hmemory : ∀ e, step c s op = .error e → e ≠ Stop.noMemory := by
      rintro _ herror rfl
      rw [allocates, bothStep, ok_bind, herror] at halloc
      exact absurd halloc nofun
    obtain ⟨s', hstep, hvalid'⟩ := (step_spec hvalid op hapart hsafe).exists_ok hmemory
    exact ⟨s', hstep, hvalid'⟩
  · rintro ⟨_, lists⟩ ⟨s, rfl, hvalid⟩
    exact hvalid.values

/-- Items of 8 bytes that have to be constructed, copied and destroyed. -/
def sampleConfig : Config Nat where
  itemSize := 8
  itemSize_pos := by decide
  trivialCtor := false
  trivialDtor := false
  trivialCopy := false
  trivialMove := false
  default := 0

/-- A copy is sorted and cut, the original grows by the copy and is assigned to it. -/
def sampleRun : List (Op Nat) :=
  [.construct, .call 0 (.insertArrayAt [5, 3, 8] 0), .copyConstruct 0,
    .call 1 (.sort fun a b => (a : Int) - b), .call 1 (.removeItemsAt 0 2),
    .insertVectorAt 0 1 1, .copyConstruct 0, .call 2 (.replaceAt (some 4) (fun _ => 0) 0),
    .assign 1 0, .call 0 (.resize (fun _ => 0) 9), .call 2 (.setCapacity 40), .call 2 .pop]

theorem values_sampleRun :
    ((∀ op ∈ sampleRun, op.apart) ∧
      EachStep (fun m op => allocates sampleConfig m op) (bothStep sampleConfig) initial sampleRun ∧
      EachStep (fun m op => safeStep sampleConfig m op) (bothStep sampleConfig) initial sampleRun) ∧
    Throughout (Values sampleConfig) (bothStep sampleConfig) initial sampleRun :=
  ⟨by decide +kernel, values_of_safe sampleConfig sampleRun (by decide +kernel) (by decide +kernel)
    (by decide +kernel)⟩

/-- An empty vector is inserted before an item, which is constructed from itself; the end of a
removal wraps to 0, which is within the vector. -/
theorem unsafe_calls_break_values :
    (¬ Throughout (Values sampleConfig) (bothStep sampleConfig) initial
      [.construct, .construct, .call 0 (.insertArrayAt [7] 0), .insertVectorAt 0 1 0]) ∧
    ¬ Throughout (Values sampleConfig) (bothStep sampleConfig) initial
      [.construct, .call 0 (.insertArrayAt [7, 8, 9] 0),
        .call 0 (.removeItemsAt (BitVec.ofNat 64 (2 ^ 64 - 1)) 1)] :=
  ⟨fun h => h.last, fun h => h.last⟩

/-- **Sorting is stable.**  Unless it is refused memory, `sort` leaves the items in order, and those
that compare equal in the order they had; other users of the buffer see no change. -/
theorem sort_stable {env : Nat → Nat} {s : Self α} {l : List α} (h : Sees c s env l)
    {cmp : α → α → Int} (htotal : ∀ a b, cmp a b ≤ 0 ∨ cmp b a ≤ 0)
    (htrans : ∀ a b d, cmp a b ≤ 0 → cmp b d ≤ 0 → cmp a d ≤ 0)
    (hmemory : sort c s cmp ≠ .error .noMemory) :
    ∃ s' l', sort c s cmp = .ok s' ∧ Becomes c s env l' s' ∧ l'.Perm l ∧
      l'.Pairwise (cmp · · ≤ 0) ∧
      ∀ a, l'.filter (fun b => cmp a b ≤ 0 ∧ cmp b a ≤ 0) =
        l.filter fun b => cmp a b ≤ 0 ∧ cmp b a ≤ 0 := by
  obtain ⟨s', hsort, hs'⟩ := (sort_spec h cmp).exists_ok fun e he hpass =>
    hmemory (he.trans (congrArg _ hpass))
  refine ⟨s', _, hsort, hs', sort_perm l, sort_pairwise htotal htrans l, fun a => ?_⟩
  refine sort_filter (fun b d hb hd => ?_) l
  simp only [decide_eq_true_eq] at hb hd
  exact htrans b a d hb.2 hd.1

/-- A vector of two items. -/
def sampleVector : Self Nat where
  storage := some 0
  count := 2
  heap := (RefHeap.empty.alloc { size := 16, items := fun i => [5, 3][i]? }).1

theorem sort_stable_sampleVector :
    ∃ s' l', sort sampleConfig sampleVector (fun a b => (a : Int) - b) = .ok s' ∧
      Becomes sampleConfig sampleVector (fun _ => 0) l' s' ∧ l'.Perm [5, 3] := by
  have hsees : Sees sampleConfig sampleVector (fun _ => 0) [5, 3] := by
    refine ⟨⟨fun b => ?_, fun b => ?_⟩, rfl, _, rfl, by decide, by decide, fun i _ => ?_⟩
    · cases b <;> rfl
    · show 0 + (if some 0 = some b then 1 else 0) < 2 ^ 31
      split <;> decide
    · simp
  have hmemory : sort sampleConfig sampleVector (fun a b => (a : Int) - b) ≠ .error .noMemory :=
    fun h => by cases h
  obtain ⟨s', l', hsort, hs', hperm, -⟩ := sort_stable hsees (by omega) (by omega) hmemory
  exact ⟨s', l', hsort, hs', hperm⟩

end LibUtils
