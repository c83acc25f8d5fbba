import AlpsSystem.UpdateEngine.Graph

/-!
# The strongly connected component of a vertex

`TarjanAlgorithm` of `tarjan.cc`, which finds the strongly connected component of one
vertex.  The recursion of `Tarjan` has a depth limit here; as many levels as there are
vertices are enough.
-/

namespace UpdateEngine

open Relation (ReflTransGen)

open List

/-! ## The algorithm -/

/-- The members of `TarjanAlgorithm` and the fields `index` and `lowlink` of the
vertices; `none` stands for `kInvalidIndex`.  The top of `stack` is its head. -/
structure TarjanState where
  index : Nat → Option Nat := fun _ => none
  lowlink : Nat → Nat := fun _ => 0
  nextIndex : Nat := 0
  stack : List Nat := []
  components : List (List Nat) := []

namespace TarjanState

/-- Number a vertex and push it. -/
def enter (s : TarjanState) (v : Nat) : TarjanState :=
  { s with
    index := Function.update s.index v (some s.nextIndex)
    lowlink := Function.update s.lowlink v s.nextIndex
    nextIndex := s.nextIndex + 1
    stack := v :: s.stack }

/-- `lowlink = min(lowlink, k)`. -/
def lower (s : TarjanState) (v k : Nat) : TarjanState :=
  { s with lowlink := Function.update s.lowlink v (min (s.lowlink v) k) }

end TarjanState

/-- Pop the stack down to `v`: the popped vertices and what is left. -/
def popComponent (v : Nat) : List Nat → List Nat × List Nat
  | [] => ([], [])
  | x :: xs => if x = v then ([x], xs) else (x :: (popComponent v xs).1, (popComponent v xs).2)

/-- The end of `Tarjan`: a vertex that reaches nothing lower closes a component. -/
def closeComponent (required v : Nat) (s : TarjanState) : TarjanState :=
  if s.index v = some (s.lowlink v) then
    let component := (popComponent v s.stack).1
    { s with
      stack := (popComponent v s.stack).2
      components :=
        if required ∈ component then s.components ++ [component] else s.components }
  else s

/-- The loop over the edges of `v`; `rec` is the recursive call. -/
def tarjanLoop (rec : Nat → TarjanState → Option TarjanState) (v : Nat) :
    List Nat → TarjanState → Option TarjanState
  | [], s => some s
  | w :: ws, s =>
    match s.index w with
    | none => (rec w s).bind fun s' => tarjanLoop rec v ws (s'.lower v (s'.lowlink w))
    | some k => tarjanLoop rec v ws (if w ∈ s.stack then s.lower v k else s)

/-- `Tarjan`, with a limit on the depth of the recursion. -/
def tarjan (g : Graph) (required : Nat) : Nat → Nat → TarjanState → Option TarjanState
  | 0, _, _ => none
  | depth + 1, v, s =>
    -- CHECK_EQ(index, kInvalidIndex)
    if (s.index v).isSome then none
    else
      (tarjanLoop (tarjan g required depth) v (g.successors v) (s.enter v)).map
        (closeComponent required v)

/-- `Execute`: the component of `v`. -/
def execute (g : Graph) (v : Nat) : Option (List Nat) :=
  (tarjan g v g.size v {}).map fun s => s.components.headD []

/-! ## Invariants -/

namespace TarjanState

/-- The number of a vertex that has one. -/
def num (s : TarjanState) (x : Nat) : Nat := (s.index x).getD 0

/-- The vertex has a number. -/
def Visited (s : TarjanState) (x : Nat) : Prop := (s.index x).isSome

/-- The vertices that have no number yet. -/
def unvisited (g : Graph) (s : TarjanState) : Finset Nat :=
  (Finset.range g.size).filter fun x => s.index x = none

@[simp] lemma lower_stack (s : TarjanState) (v k : Nat) : (s.lower v k).stack = s.stack := rfl

lemma lower_lowlink (s : TarjanState) (v k x : Nat) :
    (s.lower v k).lowlink x = if x = v then min (s.lowlink v) k else s.lowlink x := by
  unfold lower
  by_cases hx : x = v
  · subst hx
    simp
  · simp [hx]

end TarjanState

open TarjanState

/-- `y` is reachable from `x` in the graph. -/
def Graph.Reach (g : Graph) (x y : Nat) : Prop := ReflTransGen g.HasEdge x y

/-- What holds of the algorithm's state between two calls.  `active` are the vertices
whose call has not ended. -/
structure Settled (g : Graph) (active : Nat → Prop) (s : TarjanState) : Prop where
  /-- Only vertices of the graph are numbered, with numbers given out so far. -/
  inRange : ∀ x, Visited s x → x < g.size ∧ num s x < s.nextIndex
  /-- The stack is in the order of the numbers. -/
  ordered : s.stack.Pairwise fun x y => num s y < num s x
  /-- The stack holds numbered vertices. -/
  numbered : ∀ x ∈ s.stack, Visited s x
  /-- Calls that have not ended have their vertices on the stack. -/
  onStack : ∀ x, active x → x ∈ s.stack
  /-- Vertices that have left the stack lead to such vertices only. -/
  closed : ∀ x, Visited s x → x ∉ s.stack → ∀ w, g.HasEdge x w → Visited s w ∧ w ∉ s.stack
  /-- The edges of a finished vertex have been followed. -/
  followed : ∀ x ∈ s.stack, ¬ active x → ∀ w, g.HasEdge x w → Visited s w
  /-- A finished vertex on the stack reaches a lower one. -/
  descends : ∀ x ∈ s.stack, ¬ active x → ∃ y ∈ s.stack, g.Reach x y ∧ num s y < num s x

/-- What a call on the unvisited vertex `v` does. -/
structure Called (g : Graph) (required : Nat) (active : Nat → Prop) (v : Nat)
    (s s' : TarjanState) : Prop where
  settled : Settled g active s'
  /-- Vertices numbered before keep their numbers and low links. -/
  frame : ∀ x, Visited s x → s'.index x = s.index x ∧ s'.lowlink x = s.lowlink x
  index : s'.index v = some s.nextIndex
  next : s.nextIndex < s'.nextIndex
  /-- The new vertices are reachable from `v`. -/
  reached : ∀ x, Visited s' x → Visited s x ∨ g.Reach v x
  /-- Either the component of `v` is closed, or the stack has grown by a piece that
  starts at `v`; the low link of `v` is then the least number below that its edges
  lead to. -/
  stack : (s'.stack = s.stack ∧ s'.lowlink v = s.nextIndex) ∨
    ∃ seg, s'.stack = seg ++ s.stack ∧ (∀ x ∈ seg, s.nextIndex ≤ num s' x) ∧
      (∃ y ∈ s.stack, s'.lowlink v = num s y ∧ g.Reach v y) ∧
      ∀ x ∈ seg, ∀ w ∈ s.stack, g.HasEdge x w → s'.lowlink v ≤ num s w
  components : required ∈ s.stack → s'.components = s.components

/-- The loop over the edges of `v`, started when the stack was `old`.  `rest` are the
edges still to follow. -/
structure Looping (g : Graph) (required : Nat) (active : Nat → Prop) (v : Nat)
    (s₀ : TarjanState) (rest : List Nat) (s : TarjanState) : Prop where
  settled : Settled g (fun x => active x ∨ x = v) s
  frame : ∀ x, Visited s₀ x → s.index x = s₀.index x ∧ s.lowlink x = s₀.lowlink x
  index : s.index v = some s₀.nextIndex
  next : s₀.nextIndex < s.nextIndex
  reached : ∀ x, Visited s x → Visited s₀ x ∨ g.Reach v x
  stack : ∃ seg, s.stack = seg ++ v :: s₀.stack ∧ (∀ x ∈ seg, s₀.nextIndex < num s x) ∧
    ∀ x ∈ seg, ∀ w ∈ s₀.stack, g.HasEdge x w → s.lowlink v ≤ num s₀ w
  low_le : s.lowlink v ≤ s₀.nextIndex
  low : s.lowlink v = s₀.nextIndex ∨ ∃ y ∈ s₀.stack, s.lowlink v = num s₀ y ∧ g.Reach v y
  /-- An edge that is not to be followed any more has been. -/
  done : ∀ w, g.HasEdge v w → w ∉ rest → Visited s w ∧ (w ∈ s₀.stack → s.lowlink v ≤ num s₀ w)
  components : required ∈ v :: s₀.stack → s.components = s₀.components

section

variable {g : Graph} {required v x k w : Nat} {active : Nat → Prop} {s s₀ s' : TarjanState}
  {rest : List Nat}

lemma Settled.nodup (h : Settled g active s) : s.stack.Nodup :=
  h.ordered.imp fun hlt heq => by rw [heq] at hlt; exact Nat.lt_irrefl _ hlt

/-- The invariant does not speak of low links or components. -/
lemma Settled.lower (h : Settled g active s) (v k : Nat) : Settled g active (s.lower v k) :=
  { h with }

lemma num_eq_of_index (h : s.index x = some k) : num s x = k := by
  unfold num
  rw [h]
  rfl

lemma visited_of_index (h : s.index x = some k) : Visited s x := by
  unfold Visited
  rw [h]
  rfl

/-! ### Entering a vertex -/

lemma enter_index (s : TarjanState) (v x : Nat) :
    (s.enter v).index x = if x = v then some s.nextIndex else s.index x := by
  by_cases hx : x = v
  · subst hx
    simp [enter]
  · simp [enter, hx]

lemma visited_enter : Visited (s.enter v) x ↔ x = v ∨ Visited s x := by
  unfold Visited
  rw [enter_index]
  by_cases hx : x = v <;> simp [hx]

/-- Numbers given before stay when an unvisited vertex is entered. -/
lemma num_enter (hv : s.index v = none) (hx : Visited s x) : num (s.enter v) x = num s x := by
  have hne : x ≠ v := by
    rintro rfl
    simp [Visited, hv] at hx
  unfold num
  rw [enter_index, if_neg hne]

lemma num_enter_self : num (s.enter v) v = s.nextIndex :=
  num_eq_of_index (by rw [enter_index, if_pos rfl])

lemma unvisited_mono (h : ∀ x, Visited s x → Visited s' x) : unvisited g s' ⊆ unvisited g s := by
  intro x hx
  obtain ⟨hlt, hnone⟩ := Finset.mem_filter.mp hx
  refine Finset.mem_filter.mpr ⟨hlt, ?_⟩
  by_contra hne
  have hvis := h x (Option.isSome_iff_ne_none.mpr hne)
  simp [Visited, hnone] at hvis

lemma card_unvisited_enter (hlt : v < g.size) (hv : s.index v = none) :
    (unvisited g (s.enter v)).card < (unvisited g s).card := by
  apply Finset.card_lt_card
  refine ⟨unvisited_mono fun x hx => visited_enter.mpr (.inr hx), fun hsub => ?_⟩
  have hmem := hsub (Finset.mem_filter.mpr ⟨Finset.mem_range.mpr hlt, hv⟩)
  simp [unvisited, enter_index] at hmem

lemma Settled.enter (h : Settled g active s) (hlt : v < g.size) (hv : s.index v = none) :
    Settled g (fun x => active x ∨ x = v) (s.enter v) := by
  have hnum : ∀ x ∈ s.stack, num (s.enter v) x = num s x :=
    fun x hx => num_enter hv (h.numbered x hx)
  refine ⟨?_, ?_, ?_, ?_, ?_, ?_, ?_⟩
  · intro x hx
    obtain rfl | hx := visited_enter.mp hx
    · exact ⟨hlt, by rw [num_enter_self]; exact Nat.lt_succ_self _⟩
    · rw [num_enter hv hx]
      exact ⟨(h.inRange x hx).1, Nat.lt_succ_of_lt (h.inRange x hx).2⟩
  · apply List.Pairwise.cons
    · intro y hy
      rw [num_enter_self, hnum y hy]
      exact (h.inRange y (h.numbered y hy)).2
    · refine h.ordered.imp_of_mem fun hx hy hlt => ?_
      rwa [hnum _ hx, hnum _ hy]
  · intro x hx
    obtain rfl | hx := mem_cons.mp hx
    · exact visited_enter.mpr (.inl rfl)
    · exact visited_enter.mpr (.inr (h.numbered x hx))
  · rintro x (hx | rfl)
    · exact .tail _ (h.onStack x hx)
    · exact mem_cons_self
  · intro x hx hnot w hw
    have hne : x ≠ v := fun heq => hnot (heq ▸ mem_cons_self)
    have hvis : Visited s x := (visited_enter.mp hx).resolve_left hne
    obtain ⟨hwv, hws⟩ := h.closed x hvis (fun hmem => hnot (.tail _ hmem)) w hw
    refine ⟨visited_enter.mpr (.inr hwv), fun hmem => ?_⟩
    obtain rfl | hmem := mem_cons.mp hmem
    · simp [Visited, hv] at hwv
    · exact hws hmem
  · intro x hx hnot w hw
    obtain rfl | hx := mem_cons.mp hx
    · exact absurd (.inr rfl) hnot
    · exact visited_enter.mpr (.inr (h.followed x hx (fun ha => hnot (.inl ha)) w hw))
  · intro x hx hnot
    obtain rfl | hx := mem_cons.mp hx
    · exact absurd (.inr rfl) hnot
    · obtain ⟨y, hy, hreach, hlt⟩ := h.descends x hx fun ha => hnot (.inl ha)
      exact ⟨y, .tail _ hy, hreach, by rwa [hnum x hx, hnum y hy]⟩

/-- The loop starts with nothing followed. -/
lemma Looping.start (h : Settled g active s) (hlt : v < g.size) (hv : s.index v = none) :
    Looping g required active v s (g.successors v) (s.enter v) where
  settled := h.enter hlt hv
  frame x hx := by
    have hne : x ≠ v := by
      rintro rfl
      simp [Visited, hv] at hx
    exact ⟨by rw [enter_index, if_neg hne], by simp [enter, hne]⟩
  index := by rw [enter_index, if_pos rfl]
  next := Nat.lt_succ_self _
  reached x hx := by
    obtain rfl | hx := visited_enter.mp hx
    · exact .inr .refl
    · exact .inl hx
  stack := ⟨[], rfl, nofun, nofun⟩
  low_le := by simp [enter]
  low := .inl (by simp [enter])
  done w hw hnot := absurd ((Graph.mem_successors hlt).mpr hw) hnot
  components _ := rfl

/-! ### The loop -/

/-- Vertices on the old stack keep their numbers. -/
lemma Looping.num_eq (h : Looping g required active v s₀ rest s)
    (hx : Visited s₀ x) : num s x = num s₀ x := by
  unfold num
  rw [(h.frame x hx).1]

/-- Lowering the link of `v` to `k` keeps the loop's invariant, if `k` is no less than
the number of `v` or the number of a vertex below that `v` reaches. -/
lemma Looping.lower (h : Looping g required active v s₀ rest s) (hfresh : s₀.index v = none)
    (hk : s₀.nextIndex ≤ k ∨ ∃ y ∈ s₀.stack, k = num s₀ y ∧ g.Reach v y) :
    Looping g required active v s₀ rest (s.lower v k) := by
  have hlow : (s.lower v k).lowlink v = min (s.lowlink v) k := by
    rw [lower_lowlink, if_pos rfl]
  have hle : (s.lower v k).lowlink v ≤ s.lowlink v := hlow ▸ min_le_left _ _
  obtain ⟨seg, hstack, hseg, hedges⟩ := h.stack
  refine ⟨h.settled.lower v k, fun x hx => ⟨(h.frame x hx).1, ?_⟩, h.index, h.next, h.reached,
    ⟨seg, hstack, hseg, fun x hx w hw he => hle.trans (hedges x hx w hw he)⟩,
    hle.trans h.low_le, ?_, fun w hw hnot => ?_, h.components⟩
  · have hne : x ≠ v := by
      rintro rfl
      simp [Visited, hfresh] at hx
    rw [lower_lowlink, if_neg hne]
    exact (h.frame x hx).2
  · rw [hlow]
    obtain hge | ⟨y, hy, rfl, hreach⟩ := hk
    · rw [min_eq_left (h.low_le.trans hge)]
      exact h.low
    · obtain hmin | hmin := Nat.le_total (s.lowlink v) (num s₀ y)
      · rw [min_eq_left hmin]
        exact h.low
      · rw [min_eq_right hmin]
        exact .inr ⟨y, hy, rfl, hreach⟩
  · obtain ⟨hvis, hnum⟩ := h.done w hw hnot
    exact ⟨hvis, fun hmem => hle.trans (hnum hmem)⟩

lemma Called.num_eq (h : Called g required active w s s')
    (hx : Visited s x) : num s' x = num s x := by
  unfold num
  rw [(h.frame x hx).1]

lemma Called.visited (h : Called g required active w s s') (hx : Visited s x) : Visited s' x := by
  unfold Visited
  rw [(h.frame x hx).1]
  exact hx

section

variable (hs₀ : Settled g active s₀) {ws : List Nat}

include hs₀

/-- A number on the loop's stack is no bound for the link of `v`, or it belongs to a
vertex below `v`. -/
lemma Looping.stack_num (h : Looping g required active v s₀ rest s)
    {y : Nat} (hy : y ∈ s.stack) (hreach : g.Reach v y) :
    s₀.nextIndex ≤ num s y ∨ ∃ z ∈ s₀.stack, num s y = num s₀ z ∧ g.Reach v z := by
  obtain ⟨seg, hstack, hseg, -⟩ := h.stack
  rw [hstack] at hy
  rcases mem_append.mp hy with hmem | hmem
  · exact .inl (hseg y hmem).le
  · rcases mem_cons.mp hmem with rfl | hold
    · exact .inl (num_eq_of_index h.index).ge
    · exact .inr ⟨y, hold, h.num_eq (hs₀.numbered y hold), hreach⟩

/-- An edge to a numbered vertex. -/
lemma Looping.follow_visited (h : Looping g required active v s₀ (w :: ws) s)
    (hfresh : s₀.index v = none) (hw : g.HasEdge v w) (hk : s.index w = some k) :
    Looping g required active v s₀ ws (if w ∈ s.stack then s.lower v k else s) := by
  have hvis : Visited s w := visited_of_index hk
  split
  case isTrue hmem =>
    have hnum : k = num s w := (num_eq_of_index hk).symm
    have hlow := h.lower hfresh (hnum ▸ h.stack_num hs₀ hmem (.single hw) :
      s₀.nextIndex ≤ k ∨ ∃ y ∈ s₀.stack, k = num s₀ y ∧ g.Reach v y)
    refine { hlow with done := fun x hx hnot => ?_ }
    by_cases hxw : x = w
    · subst hxw
      refine ⟨hvis, fun hold => ?_⟩
      rw [lower_lowlink, if_pos rfl, hnum, h.num_eq (hs₀.numbered x hold)]
      exact min_le_right _ _
    · exact hlow.done x hx (by simp [hxw, hnot])
  case isFalse hmem =>
    refine { h with done := fun x hx hnot => ?_ }
    by_cases hxw : x = w
    · subst hxw
      obtain ⟨seg, hstack, -⟩ := h.stack
      exact ⟨hvis, fun hold => absurd (hstack ▸ by simp [hold]) hmem⟩
    · exact h.done x hx (by simp [hxw, hnot])

/-- An edge to a vertex without a number: the call for it has ended. -/
lemma Looping.follow_call (h : Looping g required active v s₀ (w :: ws) s)
    (hfresh : s₀.index v = none) (hw : g.HasEdge v w) (hnew : s.index w = none)
    (hcall : Called g required (fun x => active x ∨ x = v) w s s') :
    Looping g required active v s₀ ws (s'.lower v (s'.lowlink w)) := by
  obtain ⟨seg, hstack, hseg, hedges⟩ := h.stack
  have hv : Visited s v := visited_of_index h.index
  have hold : ∀ x, Visited s₀ x → Visited s x := fun x hx => by
    unfold Visited
    rw [(h.frame x hx).1]
    exact hx
  have hlow : (s'.lower v (s'.lowlink w)).lowlink v = min (s.lowlink v) (s'.lowlink w) := by
    rw [lower_lowlink, if_pos rfl, (hcall.frame v hv).2]
  have hle : (s'.lower v (s'.lowlink w)).lowlink v ≤ s.lowlink v := hlow ▸ min_le_left _ _
  have hle' : (s'.lower v (s'.lowlink w)).lowlink v ≤ s'.lowlink w :=
    hlow ▸ min_le_right _ _
  -- the link of `w` is high if the component of `w` is closed
  have hk : s₀.nextIndex ≤ s'.lowlink w ∨
      ∃ y ∈ s₀.stack, s'.lowlink w = num s₀ y ∧ g.Reach v y := by
    rcases hcall.stack with ⟨-, heq⟩ | ⟨_, -, -, ⟨y, hy, heq, hreach⟩, -⟩
    · exact .inl (heq ▸ h.next.le)
    · rw [heq]
      exact h.stack_num hs₀ hy (hreach.head hw)
  refine ⟨hcall.settled.lower v _, fun x hx => ⟨?_, ?_⟩, ?_, h.next.trans hcall.next,
    fun x hx => ?_, ?_, hle.trans h.low_le, ?_, fun x hx hnot => ?_, fun hreq => ?_⟩
  · exact ((hcall.frame x (hold x hx)).1).trans (h.frame x hx).1
  · have hne : x ≠ v := by
      rintro rfl
      simp [Visited, hfresh] at hx
    rw [lower_lowlink, if_neg hne, (hcall.frame x (hold x hx)).2]
    exact (h.frame x hx).2
  · exact ((hcall.frame v hv).1).trans h.index
  · rcases hcall.reached x hx with hx | hreach
    · exact h.reached x hx
    · exact .inr (hreach.head hw)
  · -- the piece of the stack above `v` grows by that of the call
    have hkeep : ∀ x ∈ seg, s₀.nextIndex < num s' x := fun x hx => by
      rw [hcall.num_eq (h.settled.numbered x (hstack ▸ mem_append_left _ hx))]
      exact hseg x hx
    rcases hcall.stack with ⟨heq, -⟩ | ⟨seg', heq, hseg', -, hedges'⟩
    · exact ⟨seg, heq.trans hstack, hkeep, fun x hx y hy he => hle.trans (hedges x hx y hy he)⟩
    · refine ⟨seg' ++ seg, ?_, fun x hx => ?_, fun x hx y hy he => ?_⟩
      · rw [lower_stack, heq, hstack, append_assoc]
      · rcases mem_append.mp hx with hx | hx
        · exact h.next.trans_le (hseg' x hx)
        · exact hkeep x hx
      · rcases mem_append.mp hx with hx | hx
        · have hle'' := hedges' x hx y (by rw [hstack]; simp [hy]) he
          rw [h.num_eq (hs₀.numbered y hy)] at hle''
          exact hle'.trans hle''
        · exact hle.trans (hedges x hx y hy he)
  · rw [hlow]
    rcases Nat.le_total (s.lowlink v) (s'.lowlink w) with hmin | hmin
    · rw [min_eq_left hmin]
      exact h.low
    · rw [min_eq_right hmin]
      rcases hk with hge | hbelow
      · exact .inl (le_antisymm (hmin.trans h.low_le) hge)
      · exact .inr hbelow
  · by_cases hxw : x = w
    · subst hxw
      refine ⟨visited_of_index hcall.index, fun hmem => ?_⟩
      have hvis := hold x (hs₀.numbered x hmem)
      simp [Visited, hnew] at hvis
    · obtain ⟨hvis, hnum⟩ := h.done x hx (by simp [hxw, hnot])
      exact ⟨hcall.visited hvis, fun hmem => hle.trans (hnum hmem)⟩
  · refine (hcall.components ?_).trans (h.components hreq)
    rw [hstack]
    exact mem_append_right _ hreq

/-- What the recursive call is relied on for, with `depth` levels left. -/
def CallSpec (g : Graph) (required depth : Nat)
    (rec : Nat → TarjanState → Option TarjanState) : Prop :=
  ∀ active v s, Settled g active s → v < g.size → s.index v = none →
    (unvisited g s).card ≤ depth → ∃ s', rec v s = some s' ∧ Called g required active v s s'

lemma tarjanLoop_spec {rec : Nat → TarjanState → Option TarjanState} {depth : Nat}
    (hrec : CallSpec g required depth rec)
    (hfresh : s₀.index v = none) :
    ∀ (ws : List Nat) (s : TarjanState), Looping g required active v s₀ ws s →
      (∀ w ∈ ws, g.HasEdge v w) → (unvisited g s).card ≤ depth →
      ∃ s', tarjanLoop rec v ws s = some s' ∧ Looping g required active v s₀ [] s' := by
  intro ws
  induction ws with
  | nil => exact fun s h _ _ => ⟨s, rfl, h⟩
  | cons w ws ih =>
    intro s h hws hdepth
    have hw : g.HasEdge v w := hws w mem_cons_self
    have htail : ∀ x ∈ ws, g.HasEdge v x := fun x hx => hws x (.tail _ hx)
    cases hidx : s.index w with
    | none =>
      obtain ⟨s', hs', hcall⟩ := hrec _ w s h.settled hw.2.1 hidx hdepth
      have hmono : unvisited g s' ⊆ unvisited g s := unvisited_mono fun x => hcall.visited
      obtain ⟨s'', hs'', hend⟩ := ih _ (h.follow_call hs₀ hfresh hw hidx hcall) htail
        ((Finset.card_le_card hmono).trans hdepth)
      refine ⟨s'', ?_, hend⟩
      simp only [tarjanLoop, hidx, hs', Option.bind_some]
      exact hs''
    | some k =>
      obtain ⟨s'', hs'', hend⟩ := ih _ (h.follow_visited hs₀ hfresh hw hidx) htail
        (by split <;> exact hdepth)
      refine ⟨s'', ?_, hend⟩
      simp only [tarjanLoop, hidx]
      exact hs''

/-! ### Closing a component -/

omit hs₀ in
theorem popComponent_append {v : Nat} {seg old : List Nat} (h : v ∉ seg) :
    popComponent v (seg ++ v :: old) = (seg ++ [v], old) := by
  induction seg with
  | nil => simp [popComponent]
  | cons x xs ih =>
    have hne : x ≠ v := fun heq => h (heq ▸ mem_cons_self)
    simp [popComponent, hne, ih fun hmem => h (mem_cons_of_mem _ hmem)]

/-- A vertex on the old stack has a number below that of `v`. -/
lemma Looping.old_lt (h : Looping g required active v s₀ rest s)
    (hx : x ∈ s₀.stack) : num s x < s₀.nextIndex := by
  rw [h.num_eq (hs₀.numbered x hx)]
  exact (hs₀.inRange x (hs₀.numbered x hx)).2

end

section

variable (h : Looping g required active v s₀ [] s) (hs₀ : Settled g active s₀)

include h hs₀

/-- The vertices above `v` on the stack have ended their calls. -/
lemma Looping.ended {seg : List Nat} (hseg : ∀ x ∈ seg, s₀.nextIndex < num s x) (hx : x ∈ seg) :
    ¬ (active x ∨ x = v) := by
  have hgt := hseg x hx
  rintro (hact | rfl)
  · have hvis := hs₀.numbered x (hs₀.onStack x hact)
    rw [h.num_eq hvis] at hgt
    exact absurd (hs₀.inRange x hvis).2 hgt.not_gt
  · rw [num_eq_of_index h.index] at hgt
    exact lt_irrefl _ hgt

/-- The invariant after `v` has left the stack with all above it. -/
lemma Looping.settled_popped (hlow : s.lowlink v = s₀.nextIndex) (cs : List (List Nat)) :
    Settled g active { s with stack := s₀.stack, components := cs } := by
  obtain ⟨seg, hstack, hseg, hedges⟩ := h.stack
  have hsub : ∀ x ∈ s₀.stack, x ∈ s.stack := fun x hx => hstack ▸ by simp [hx]
  -- a vertex at or above `v` has no edge below it
  have habove : ∀ x, x ∈ seg ∨ x = v → ∀ w, g.HasEdge x w → Visited s w ∧ w ∉ s₀.stack := by
    rintro x (hx | rfl) w hw
    · refine ⟨h.settled.followed x (hstack ▸ mem_append_left _ hx)
        (h.ended hs₀ hseg hx) w hw, fun hmem => ?_⟩
      have hle := hedges x hx w hmem hw
      rw [hlow, ← h.num_eq (hs₀.numbered w hmem)] at hle
      exact absurd (h.old_lt hs₀ hmem) hle.not_gt
    · obtain ⟨hvis, hle⟩ := h.done w hw not_mem_nil
      refine ⟨hvis, fun hmem => ?_⟩
      have hle := hle hmem
      rw [hlow, ← h.num_eq (hs₀.numbered w hmem)] at hle
      exact absurd (h.old_lt hs₀ hmem) hle.not_gt
  have hne : ∀ x ∈ s₀.stack, x ≠ v := by
    rintro x hx rfl
    have hlt := h.old_lt hs₀ hx
    rw [num_eq_of_index h.index] at hlt
    exact lt_irrefl _ hlt
  refine ⟨h.settled.inRange, ?_, fun x hx => h.settled.numbered x (hsub x hx), hs₀.onStack, ?_,
    fun x hx hnot => ?_, fun x hx hnot => ?_⟩
  · have hord := h.settled.ordered
    rw [hstack] at hord
    exact (pairwise_cons.mp (pairwise_append.mp hord).2.1).2
  · intro x hvis hnot w hw
    by_cases hx : x ∈ s.stack
    · rw [hstack] at hx
      have hx' : x ∈ seg ∨ x = v := by
        rcases mem_append.mp hx with hx | hx
        · exact .inl hx
        · exact .inr ((mem_cons.mp hx).resolve_right hnot)
      exact habove x hx' w hw
    · obtain ⟨hwv, hws⟩ := h.settled.closed x hvis hx w hw
      exact ⟨hwv, fun hmem => hws (hsub w hmem)⟩
  · exact h.settled.followed x (hsub x hx) (fun ha => ha.elim hnot (hne x hx))
  · obtain ⟨y, hy, hreach, hlt⟩ :=
      h.settled.descends x (hsub x hx) (fun ha => ha.elim hnot (hne x hx))
    have hxlt := h.old_lt hs₀ hx
    rw [hstack] at hy
    rcases mem_append.mp hy with hy | hy
    · exact absurd (hlt.trans hxlt) (hseg y hy).not_gt
    · rcases mem_cons.mp hy with rfl | hy
      · rw [num_eq_of_index h.index] at hlt
        exact absurd hlt hxlt.not_gt
      · exact ⟨y, hy, hreach, hlt⟩

/-- The invariant when `v` stays on the stack. -/
lemma Looping.settled_kept {y : Nat} (hy : y ∈ s₀.stack) (hreach : g.Reach v y) :
    Settled g active s := by
  obtain ⟨seg, hstack, -, -⟩ := h.stack
  have hys : y ∈ s.stack := hstack ▸ by simp [hy]
  have hsub : ∀ x ∈ s₀.stack, x ∈ s.stack := fun x hx => hstack ▸ by simp [hx]
  refine ⟨h.settled.inRange, h.settled.ordered, h.settled.numbered,
    fun x hx => hsub x (hs₀.onStack x hx), h.settled.closed, fun x hx hnot w hw => ?_,
    fun x hx hnot => ?_⟩
  · by_cases hxv : x = v
    · subst hxv
      exact (h.done w hw not_mem_nil).1
    · exact h.settled.followed x hx (fun ha => ha.elim hnot hxv) w hw
  · by_cases hxv : x = v
    · subst hxv
      refine ⟨y, hys, hreach, ?_⟩
      rw [num_eq_of_index h.index]
      exact h.old_lt hs₀ hy
    · exact h.settled.descends x hx fun ha => ha.elim hnot hxv

/-- The end of a call. -/
lemma Looping.close : Called g required active v s₀ (closeComponent required v s) := by
  obtain ⟨seg, hstack, hseg, hedges⟩ := h.stack
  have hvseg : v ∉ seg := fun hmem => h.ended hs₀ hseg hmem (.inr rfl)
  unfold closeComponent
  rw [h.index, hstack, popComponent_append hvseg]
  by_cases hlow : s.lowlink v = s₀.nextIndex
  · rw [if_pos (by rw [hlow])]
    refine ⟨h.settled_popped hs₀ hlow _, h.frame, h.index, h.next, h.reached,
      .inl ⟨rfl, hlow⟩, fun hreq => ?_⟩
    -- the component required is further down
    have hnot : required ∉ seg ++ [v] := by
      intro hmem
      have hlt := h.old_lt hs₀ hreq
      rcases mem_append.mp hmem with hmem | hmem
      · exact absurd (hseg required hmem) hlt.not_gt
      · rw [mem_singleton.mp hmem, num_eq_of_index h.index] at hlt
        exact lt_irrefl _ hlt
    dsimp only
    rw [if_neg hnot]
    exact h.components (.tail _ hreq)
  · obtain ⟨y, hy, heq, hreach⟩ := h.low.resolve_left hlow
    rw [if_neg (fun heq => hlow (Option.some.inj heq).symm)]
    refine ⟨h.settled_kept hs₀ hy hreach, h.frame, h.index, h.next, h.reached,
      .inr ⟨seg ++ [v], by simp [hstack], fun x hx => ?_, ⟨y, hy, heq, hreach⟩,
        fun x hx w hw he => ?_⟩, fun hreq => h.components (.tail _ hreq)⟩
    · rcases mem_append.mp hx with hx | hx
      · exact (hseg x hx).le
      · rw [mem_singleton.mp hx, num_eq_of_index h.index]
    · rcases mem_append.mp hx with hx | hx
      · exact hedges x hx w hw he
      · exact (h.done w (mem_singleton.mp hx ▸ he) not_mem_nil).2 hw

end

/-- With a level for every unvisited vertex, a call ends and does what it is relied on
for. -/
lemma tarjan_spec (g : Graph) (required : Nat) :
    ∀ depth, CallSpec g required depth (tarjan g required depth) := by
  intro depth
  induction depth with
  | zero =>
    intro active v s _ hlt hv hcard
    have hmem : v ∈ unvisited g s := Finset.mem_filter.mpr ⟨Finset.mem_range.mpr hlt, hv⟩
    exact absurd (Finset.card_pos.mpr ⟨v, hmem⟩) (by omega)
  | succ depth ih =>
    intro active v s hs hlt hv hcard
    have hdepth : (unvisited g (s.enter v)).card ≤ depth :=
      Nat.le_of_lt_succ ((card_unvisited_enter hlt hv).trans_le hcard)
    obtain ⟨s', hs', hloop⟩ := tarjanLoop_spec hs ih hv (g.successors v) (s.enter v)
      (Looping.start hs hlt hv) (fun w hw => (Graph.mem_successors hlt).mp hw) hdepth
    refine ⟨closeComponent required v s', ?_, hloop.close hs⟩
    simp [tarjan, hv, hs']

end

/-! ## The component -/

section

variable {g : Graph} {v : Nat} {s : TarjanState}

lemma settled_empty (g : Graph) : Settled g (fun _ => False) {} where
  inRange x hx := by simp [Visited] at hx
  ordered := List.Pairwise.nil
  numbered := nofun
  onStack := nofun
  closed x hx := by simp [Visited] at hx
  followed := nofun
  descends := nofun

/-- A vertex on the stack reaches the bottom one. -/
lemma Settled.reach_bottom (h : Settled g (fun x => x = v) s) :
    ∀ n, ∀ x ∈ s.stack, num s x = n → g.Reach x v := by
  intro n
  induction n using Nat.strong_induction_on with
  | _ n ih =>
    rintro x hx rfl
    by_cases hxv : x = v
    · exact hxv ▸ .refl
    · obtain ⟨y, hy, hreach, hlt⟩ := h.descends x hx hxv
      exact hreach.trans (ih (num s y) hlt y hy rfl)

/-- Everything reachable from a vertex that has left the stack has left it. -/
lemma Settled.closed_reach {active : Nat → Prop} (h : Settled g active s) {x y : Nat}
    (hx : Visited s x) (hnot : x ∉ s.stack) (hreach : g.Reach x y) :
    Visited s y ∧ y ∉ s.stack := by
  induction hreach with
  | refl => exact ⟨hx, hnot⟩
  | tail _ hedge ih => exact h.closed _ ih.1 ih.2 _ hedge

/-- `Execute` ends, and lists exactly the strongly connected component, each vertex
once. -/
lemma execute_eq_component (hlt : v < g.size) :
    ∃ component, execute g v = some component ∧ component.Nodup ∧
      ∀ x, x ∈ component ↔ g.Reach v x ∧ g.Reach x v := by
  obtain ⟨depth, hsize⟩ := Nat.exists_eq_add_of_lt hlt
  have hcard : (unvisited g ({} : TarjanState)).card = g.size := by simp [unvisited]
  have hdepth : (unvisited g (enter {} v)).card ≤ v + depth := by
    have := card_unvisited_enter (s := {}) hlt rfl
    omega
  obtain ⟨s, hs, hloop⟩ := tarjanLoop_spec (settled_empty g)
    (tarjan_spec g v (v + depth)) rfl (g.successors v) (enter {} v)
    (Looping.start (settled_empty g) hlt rfl) (fun w hw => (Graph.mem_successors hlt).mp hw)
    hdepth
  have hsettled : Settled g (fun x => x = v) s := by simpa using hloop.settled
  obtain ⟨seg, hstack, hseg, -⟩ := hloop.stack
  have hvseg : v ∉ seg :=
    fun hmem => hloop.ended (settled_empty g) hseg hmem (.inr rfl)
  have hlow : s.lowlink v = 0 := by
    rcases hloop.low with hlow | ⟨y, hy, -⟩
    · exact hlow
    · exact absurd hy not_mem_nil
  have hindex : s.index v = some 0 := hloop.index
  have hcomps : s.components = [] := hloop.components (mem_cons_self)
  have hclose : (closeComponent v v s).components = [s.stack] := by
    have hpop : popComponent v s.stack = (s.stack, []) := by
      rw [hstack, popComponent_append hvseg]
    unfold closeComponent
    rw [hindex, hlow, hpop, hcomps]
    simp [hstack]
  -- everything that `v` reaches has a number
  have hvisited : ∀ x, g.Reach v x → Visited s x := by
    intro x hreach
    induction hreach with
    | refl => exact visited_of_index hindex
    | @tail y z _ hedge ih =>
      by_cases hy : y ∈ s.stack
      · by_cases hyv : y = v
        · exact (hloop.done z (hyv ▸ hedge) not_mem_nil).1
        · exact hsettled.followed y hy hyv z hedge
      · exact (hsettled.closed y ih hy z hedge).1
  refine ⟨s.stack, ?_, hsettled.nodup, fun x => ⟨fun hx => ⟨?_, ?_⟩, fun ⟨hto, hfrom⟩ => ?_⟩⟩
  · have htarjan : tarjan g v g.size v {} = some (closeComponent v v s) := by
      rw [hsize]
      simp [tarjan, hs]
    simp [execute, htarjan, hclose]
  · rcases hloop.reached x (hsettled.numbered x hx) with hvis | hreach
    · simp [Visited] at hvis
    · exact hreach
  · exact hsettled.reach_bottom (num s x) x hx rfl
  · by_contra hnot
    exact (hsettled.closed_reach (hvisited x hto) hnot hfrom).2 (hstack ▸ by simp)

/-- **The component of every vertex** is what `Execute` lists, each of its vertices once. -/
theorem execute_component (g : Graph) (v : Fin g.size) :
    ∃ component, execute g v = some component ∧ component.Nodup ∧
      ∀ x, x ∈ component ↔ g.Reach v x ∧ g.Reach x v :=
  execute_eq_component v.isLt

end

end UpdateEngine
