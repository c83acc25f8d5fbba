import AlpsSystem.UpdateEngine.Tarjan

/-!
# Breaking the cycles of the graph

`CycleBreaker` of `cycle_breaker.cc`: Johnson's enumeration of the elementary circuits,
changed so that every circuit found is cut at one of its first two edges and that the
search gives up a path that holds a cut edge.  The recursions have a depth limit here;
the size of the graph is enough for both.
-/

namespace UpdateEngine

open Relation (TransGen ReflTransGen)

open List

/-! ## The algorithm -/

/-- Insert a key into a `std::set`, kept as an increasing list. -/
def insertKey {α : Type} [DecidableEq α] (r : α → α → Prop) [DecidableRel r] (a : α)
    (l : List α) : List α :=
  if a ∈ l then l else l.orderedInsert r a

lemma mem_insertKey {α : Type} [DecidableEq α] {r : α → α → Prop} [DecidableRel r] {a b : α}
    {l : List α} : b ∈ insertKey r a l ↔ b = a ∨ b ∈ l := by
  unfold insertKey
  split
  case isTrue h => exact ⟨Or.inr, fun hb => hb.elim (fun heq => heq ▸ h) id⟩
  case isFalse h => exact mem_orderedInsert r

/-- The order of `std::pair`. -/
def edgeLe (a b : Edge) : Prop := a.1 < b.1 ∨ a.1 = b.1 ∧ a.2 ≤ b.2

instance : DecidableRel edgeLe := fun _ _ => inferInstanceAs (Decidable (_ ∨ _ ∧ _))

/-- The members of `CycleBreaker` that `Circuit` changes.  `blockedGraph` has the keys of
the edge maps of `blocked_graph_`; the bottom of `stack` is its head. -/
structure Breaker where
  cutEdges : List Edge := []
  blocked : Nat → Bool := fun _ => false
  blockedGraph : Nat → List Nat := fun _ => []
  stack : List Nat := []

/-- The members that `Circuit` only reads. -/
structure Search where
  subgraph : Graph
  /-- The field `subgraph_edges` of the vertices. -/
  subgraphEdges : Nat → List Nat
  currentVertex : Nat

def kMaxEdgesToConsider : Nat := 2

/-- The edges of a walk. -/
def walkEdges (l : List Nat) : List Edge := l.zip l.tail

/-- The loop of `HandleCircuit`: the edge to cut, `some none` when one of the edges
considered is cut already. -/
def considerEdges (g : Graph) (cut : List Edge) :
    (considered : Nat) → (minEdge : Edge) → (minWeight : UInt64) → List Edge → Option (Option Edge)
  | _, minEdge, _, [] => some (some minEdge)
  | considered, minEdge, minWeight, e :: es =>
    if e ∈ cut then some none
    else
      (edgeWeight g e).bind fun weight =>
        let best := if weight < minWeight then (e, weight) else (minEdge, minWeight)
        if considered + 1 = kMaxEdgesToConsider then some (some best.1)
        else considerEdges g cut (considered + 1) best.1 best.2 es

/-- `HandleCircuit`: the stack is a circuit; cut it. -/
def handleCircuit (c : Search) (s : Breaker) : Option Breaker :=
  match walkEdges (s.stack ++ [c.currentVertex]) with
  -- CHECK_GE(stack_.size(), 2)
  | [] => none
  | e :: es =>
    (considerEdges c.subgraph s.cutEdges 0 e 0xFFFFFFFFFFFFFFFF (e :: es)).map fun
      | none => s
      | some cut => { s with cutEdges := insertKey edgeLe cut s.cutEdges }

namespace Breaker

def setBlocked (s : Breaker) (u : Nat) (b : Bool) : Breaker :=
  { s with blocked := Function.update s.blocked u b }

/-- Erase `w` from the entries of `u`. -/
def eraseEntry (s : Breaker) (u w : Nat) : Breaker :=
  { s with blockedGraph := Function.update s.blockedGraph u ((s.blockedGraph u).erase w) }

/-- Add `vertex` to the entries of every vertex of the list. -/
def park (s : Breaker) (vertex : Nat) (ws : List Nat) : Breaker :=
  { s with
    blockedGraph := fun w =>
      if w ∈ ws then insertKey (· ≤ ·) vertex (s.blockedGraph w) else s.blockedGraph w }

def stackContainsCutEdge (s : Breaker) : Bool := (walkEdges s.stack).any (· ∈ s.cutEdges)

def push (s : Breaker) (v : Nat) : Breaker :=
  { s with stack := s.stack ++ [v], blocked := Function.update s.blocked v true }

end Breaker

/-- The loop of `Unblock` over the entries of `u`; `rec` is the recursive call. -/
def unblockLoop (rec : Nat → Breaker → Option Breaker) (u : Nat) :
    List Nat → Breaker → Option Breaker
  | [], s => some s
  | w :: ws, s =>
    let s := s.eraseEntry u w
    if s.blocked w then (rec w s).bind (unblockLoop rec u ws)
    else unblockLoop rec u ws s

/-- `Unblock`, with a limit on the depth of the recursion. -/
def unblock : Nat → Nat → Breaker → Option Breaker
  | 0, _, _ => none
  | fuel + 1, u, s => unblockLoop (unblock fuel) u (s.blockedGraph u) (s.setBlocked u false)

/-- The loop of `Circuit` over the edges of a vertex; `rec` is the recursive call. -/
def circuitLoop (c : Search) (rec : Nat → Nat → Breaker → Option (Bool × Breaker))
    (depth : Nat) : List Nat → Bool → Breaker → Option (Bool × Breaker)
  | [], found, s => some (found, s)
  | w :: ws, found, s =>
    if w = c.currentVertex then (handleCircuit c s).bind (circuitLoop c rec depth ws true)
    else if s.blocked w then circuitLoop c rec depth ws found s
    else
      (rec w (depth + 1) s).bind fun r =>
        if r.1 then
          if depth > kMaxEdgesToConsider || r.2.stackContainsCutEdge then some (true, r.2)
          else circuitLoop c rec depth ws true r.2
        else circuitLoop c rec depth ws found r.2

/-- The end of `Circuit`. -/
def leave (c : Search) (vertex : Nat) (found : Bool) (s : Breaker) : Option (Bool × Breaker) :=
  (if found then unblock c.subgraph.size vertex s
    else some (s.park vertex (c.subgraphEdges vertex))).bind fun s =>
    -- CHECK_EQ(vertex, stack_.back())
    if s.stack.getLast? = some vertex then some (found, { s with stack := s.stack.dropLast })
    else none

/-- `Circuit`, with a limit on the depth of the recursion.  What it logs is left out. -/
def circuit (c : Search) : Nat → Nat → Nat → Breaker → Option (Bool × Breaker)
  | 0, _, _, _ => none
  | fuel + 1, vertex, depth, s =>
    (circuitLoop c (circuit c fuel) depth (c.subgraphEdges vertex) false (s.push vertex)).bind
      fun r => leave c vertex r.1 r.2

/-- Erase a vertex from the subgraph: what it points to, and the edges to it from the
vertices after it. -/
def eraseNode (g : Graph) (i : Nat) : Graph :=
  { g with
    vertex := fun k =>
      if k = i then (g.vertex k).clearEdges
      else if i < k then (g.vertex k).eraseEdge i
      else g.vertex k }

/-- What the loop of `BreakCycles` carries. -/
structure Breaking where
  subgraph : Graph
  subgraphEdges : Nat → List Nat := fun _ => []
  breaker : Breaker := {}
  skippedOps : Nat := 0

/-- One round of the loop of `BreakCycles`. -/
def breakStep (graph : Graph) (b : Breaking) (i : Nat) : Option Breaking :=
  if (graph.vertex i).aop.op.type.isFull then some { b with skippedOps := b.skippedOps + 1 }
  else
    let subgraph := if 0 < i then eraseNode b.subgraph (i - 1) else b.subgraph
    (execute subgraph i).bind fun component =>
      let subgraphEdges := fun k =>
        if k ∈ component then (subgraph.successors k).filter (· ∈ component)
        else b.subgraphEdges k
      (circuit ⟨subgraph, subgraphEdges, i⟩ subgraph.size i 0
        { b.breaker with blocked := fun _ => false, blockedGraph := fun _ => [] }).map fun r =>
        { b with subgraph := subgraph, subgraphEdges := subgraphEdges, breaker := r.2 }

/-- `BreakCycles`: the edges to cut. -/
def breakCycles (graph : Graph) : Option (List Edge) :=
  ((List.range graph.size).foldlM (breakStep graph) { subgraph := graph }).map
    (·.breaker.cutEdges)

/-! ## Unblocking -/

/-- `u` is an entry of `x`: it is to be unblocked with it. -/
def Breaker.Waits (s : Breaker) (u x : Nat) : Prop := u ∈ s.blockedGraph x

/-- The blocked vertices. -/
def Breaker.blockedSet (n : Nat) (s : Breaker) : Finset Nat :=
  (Finset.range n).filter fun x => s.blocked x = true

/-- `x` has been unblocked between two states, with all that wait for it. -/
structure Released (s s' : Breaker) (x : Nat) : Prop where
  blocked : s'.blocked x = false
  entries : s'.blockedGraph x = []
  waiting : ∀ y ∈ s.blockedGraph x, s'.blocked y = false

/-- Nothing has happened to `x` between two states. -/
structure Untouched (s s' : Breaker) (x : Nat) : Prop where
  blocked : s'.blocked x = s.blocked x
  entries : s'.blockedGraph x = s.blockedGraph x

/-- What unblocking the vertices of `us` does: blocked vertices that wait for one of
them, by a chain of `W`, are released; the others are untouched. -/
structure Unblocked (W : Nat → Nat → Prop) (us : List Nat) (s s' : Breaker) : Prop where
  stack : s'.stack = s.stack
  cutEdges : s'.cutEdges = s.cutEdges
  vertex : ∀ x, Untouched s s' x ∨
    (Released s s' x ∧ s.blocked x = true ∧ ∃ u ∈ us, ReflTransGen W x u)
  unblocked : ∀ u ∈ us, s'.blocked u = false

/-- The state with the entries of `u` gone. -/
def Breaker.clearEntries (s : Breaker) (u : Nat) : Breaker :=
  { s with blockedGraph := Function.update s.blockedGraph u [] }

open Breaker

section

variable {W : Nat → Nat → Prop} {s s' s'' : Breaker} {u : Nat} {us : List Nat} {n : Nat}

section

variable (h : Unblocked W us s s') {x : Nat}

include h

lemma Unblocked.blocked_of (hx : s'.blocked x) : s.blocked x := by
  rcases h.vertex x with hsame | ⟨-, hb, -⟩
  · rw [← hsame.blocked]
    exact hx
  · exact hb

lemma Unblocked.waits_of {y : Nat} (hx : s'.Waits x y) : s.Waits x y := by
  unfold Breaker.Waits at *
  rcases h.vertex y with hsame | ⟨hrel, -⟩
  · rwa [← hsame.entries]
  · rw [hrel.entries] at hx
    exact absurd hx not_mem_nil

/-- A vertex that is not blocked is untouched. -/
lemma Unblocked.untouched (hx : s.blocked x = false) : Untouched s s' x := by
  rcases h.vertex x with hsame | ⟨-, hb, -⟩
  · exact hsame
  · rw [hx] at hb
    exact absurd hb Bool.false_ne_true

lemma Unblocked.stays (hx : s.blocked x = false) :
    s'.blocked x = false := (h.untouched hx).blocked.trans hx

/-- Unblocking one list after another. -/
lemma Unblocked.trans {us' : List Nat} (h' : Unblocked W us' s' s'') :
    Unblocked W (us ++ us') s s'' := by
  refine ⟨h'.stack.trans h.stack, h'.cutEdges.trans h.cutEdges, fun x => ?_, fun u hu => ?_⟩
  · rcases h.vertex x with hsame | ⟨hrel, hb, w, hw, hchain⟩
    · rcases h'.vertex x with hsame' | ⟨hrel, hb, w, hw, hchain⟩
      · exact .inl ⟨hsame'.blocked.trans hsame.blocked, hsame'.entries.trans hsame.entries⟩
      · refine .inr ⟨⟨hrel.blocked, hrel.entries, ?_⟩, hsame.blocked ▸ hb, w,
          mem_append_right _ hw, hchain⟩
        rw [← hsame.entries]
        exact hrel.waiting
    · have hsame' := h'.untouched hrel.blocked
      exact .inr ⟨⟨hsame'.blocked.trans hrel.blocked, hsame'.entries.trans hrel.entries,
        fun y hy => h'.stays (hrel.waiting y hy)⟩, hb, w, mem_append_left _ hw, hchain⟩
  · rcases mem_append.mp hu with hu | hu
    · exact h'.stays (h.unblocked u hu)
    · exact h'.unblocked u hu

end

lemma clearEntries_self (s : Breaker) (u : Nat) : (s.clearEntries u).blockedGraph u = [] := by
  simp [clearEntries]

lemma clearEntries_of_ne (s : Breaker) {x : Nat} (h : x ≠ u) :
    (s.clearEntries u).blockedGraph x = s.blockedGraph x := by
  simp [clearEntries, h]

/-- Unblocking does not look at the entries of a vertex that is not blocked. -/
lemma Unblocked.clearEntries (h : Unblocked W us s s') (hu : s.blocked u = false) :
    Unblocked W us (s.clearEntries u) (s'.clearEntries u) := by
  refine ⟨h.stack, h.cutEdges, fun x => ?_, h.unblocked⟩
  by_cases hx : x = u
  · subst hx
    exact .inl ⟨(h.untouched hu).blocked, by rw [clearEntries_self, clearEntries_self]⟩
  · rcases h.vertex x with hsame | ⟨hrel, hb⟩
    · refine .inl ⟨hsame.blocked, ?_⟩
      rw [clearEntries_of_ne _ hx, clearEntries_of_ne _ hx, hsame.entries]
    · refine .inr ⟨⟨hrel.blocked, ?_, ?_⟩, hb⟩
      · rw [clearEntries_of_ne _ hx, hrel.entries]
      · rw [clearEntries_of_ne _ hx]
        exact hrel.waiting

open Finset (mem_filter)

lemma card_blockedSet_lt (hlt : u < n) (hu : s.blocked u) :
    ((s.setBlocked u false).blockedSet n).card < (s.blockedSet n).card := by
  apply Finset.card_lt_card
  refine ⟨fun x hx => ?_, fun hsub => ?_⟩
  · obtain ⟨hlt, hx⟩ := Finset.mem_filter.mp hx
    refine Finset.mem_filter.mpr ⟨hlt, ?_⟩
    by_cases hxu : x = u
    · exact hxu ▸ hu
    · simpa [setBlocked, hxu] using hx
  · have hmem := hsub (mem_filter.mpr ⟨Finset.mem_range.mpr hlt, hu⟩)
    have hfalse := (Finset.mem_filter.mp hmem).2
    simp [setBlocked] at hfalse

/-- What the recursive call is relied on for, with `fuel` levels left. -/
def UnblockSpec (n fuel : Nat) (rec : Nat → Breaker → Option Breaker) : Prop :=
  ∀ W u s, (∀ x y, s.Waits x y → W x y) → (∀ x, s.blocked x = true → x < n) →
    s.blocked u = true → ((s.setBlocked u false).blockedSet n).card < fuel →
    ∃ s', rec u s = some s' ∧ Unblocked W [u] s s'

lemma unblockLoop_spec {rec : Nat → Breaker → Option Breaker} {fuel : Nat}
    (hrec : UnblockSpec n fuel rec) :
    ∀ (ws : List Nat) (s : Breaker), s.blockedGraph u = ws → s.blocked u = false →
      (∀ x y, s.Waits x y → W x y) → (∀ x, s.blocked x → x < n) →
      (s.blockedSet n).card ≤ fuel →
      ∃ s', unblockLoop rec u ws s = some s' ∧ Unblocked W ws (s.clearEntries u) s' := by
  intro ws
  induction ws with
  | nil =>
    intro s hentries _ _ _ _
    refine ⟨s, rfl, rfl, rfl, fun x => .inl ⟨rfl, ?_⟩, nofun⟩
    by_cases hx : x = u
    · subst hx
      rw [clearEntries_self, hentries]
    · rw [clearEntries_of_ne _ hx]
  | cons w ws ih =>
    intro s hentries hu hW hlt hcard
    have hentries' : (s.eraseEntry u w).blockedGraph u = ws := by
      simp [eraseEntry, hentries]
    have hW' : ∀ x y, (s.eraseEntry u w).Waits x y → W x y := by
      intro x y hxy
      apply hW
      by_cases hy : y = u
      · subst hy
        exact mem_of_mem_erase (by simpa [Breaker.Waits, eraseEntry] using hxy)
      · simpa [Breaker.Waits, eraseEntry, hy] using hxy
    have hclear : (s.eraseEntry u w).clearEntries u = s.clearEntries u := by
      simp [eraseEntry, clearEntries]
    by_cases hw : s.blocked w
    · have hcard' : (((s.eraseEntry u w).setBlocked w false).blockedSet n).card < fuel :=
        (card_blockedSet_lt (hlt w hw) hw).trans_le hcard
      obtain ⟨s1, hs1, hun⟩ := hrec W w (s.eraseEntry u w) hW' hlt hw hcard'
      have hsame : Untouched (s.eraseEntry u w) s1 u := hun.untouched hu
      have hsub : s1.blockedSet n ⊆ s.blockedSet n := fun x hx => by
        obtain ⟨hxlt, hx⟩ := Finset.mem_filter.mp hx
        exact mem_filter.mpr ⟨hxlt, hun.blocked_of hx⟩
      obtain ⟨s', hs', hun'⟩ := ih s1 (hsame.entries.trans hentries') (hsame.blocked.trans hu)
        (fun x y hxy => hW' x y (hun.waits_of hxy)) (fun x hx => hlt x (hun.blocked_of hx))
        ((Finset.card_le_card hsub).trans hcard)
      refine ⟨s', ?_, ?_⟩
      · have hb : (s.eraseEntry u w).blocked w := hw
        simp only [unblockLoop, hb, hs1]
        exact hs'
      · rw [← hclear]
        exact (hun.clearEntries hu).trans hun'
    · obtain ⟨s', hs', hun'⟩ := ih (s.eraseEntry u w) hentries' hu hW' hlt hcard
      refine ⟨s', ?_, ?_⟩
      · have hb : (s.eraseEntry u w).blocked w = false := Bool.eq_false_of_not_eq_true hw
        simp only [unblockLoop, hb]
        exact hs'
      · rw [hclear] at hun'
        refine ⟨hun'.stack, hun'.cutEdges, fun x => (hun'.vertex x).imp_right ?_, ?_⟩
        · rintro ⟨hrel, hb, v, hv, hchain⟩
          exact ⟨hrel, hb, v, mem_cons_of_mem _ hv, hchain⟩
        · intro v hv
          rcases mem_cons.mp hv with rfl | hv
          · exact hun'.stays (by simpa [clearEntries] using hw)
          · exact hun'.unblocked v hv

/-- `Unblock` of a blocked vertex releases the blocked vertices that wait for it, and
nothing else. -/
lemma unblock_spec (n : Nat) : ∀ fuel, UnblockSpec n fuel (unblock fuel) := by
  intro fuel
  induction fuel with
  | zero => exact fun _ _ _ _ _ _ hcard => absurd hcard (Nat.not_lt_zero _)
  | succ fuel ih =>
    intro W u s hW hlt hu hcard
    obtain ⟨s', hs', hun⟩ := unblockLoop_spec ih (s.blockedGraph u)
      (s.setBlocked u false) rfl (by simp [setBlocked]) hW
      (fun x hx => hlt x (by
        by_cases hxu : x = u
        · exact hxu ▸ hu
        · simpa [setBlocked, hxu] using hx))
      (Nat.le_of_lt_succ hcard)
    have hfree : ((s.setBlocked u false).clearEntries u).blocked u = false := by
      simp [setBlocked, clearEntries]
    have hself : Untouched _ s' u := hun.untouched hfree
    refine ⟨s', hs', hun.stack, hun.cutEdges, fun x => ?_, fun v hv => ?_⟩
    · by_cases hx : x = u
      · subst hx
        exact .inr ⟨⟨hself.blocked.trans hfree, hself.entries.trans (clearEntries_self _ _),
          hun.unblocked⟩, hu, x, mem_cons_self, .refl⟩
      · have hblocked : ((s.setBlocked u false).clearEntries u).blocked x = s.blocked x := by
          simp [setBlocked, clearEntries, hx]
        have hentries : ((s.setBlocked u false).clearEntries u).blockedGraph x =
            s.blockedGraph x := clearEntries_of_ne _ hx
        rcases hun.vertex x with hsame | ⟨hrel, hb, w, hw, hchain⟩
        · exact .inl ⟨hsame.blocked.trans hblocked, hsame.entries.trans hentries⟩
        · exact .inr ⟨⟨hrel.blocked, hrel.entries, hentries ▸ hrel.waiting⟩, hblocked ▸ hb, u,
            mem_cons_self, hchain.tail (hW w u hw)⟩
    · rw [mem_singleton.mp hv]
      exact hself.blocked.trans hfree

end

end UpdateEngine
