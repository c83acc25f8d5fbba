import AlpsSystem.UpdateEngine.Circuit

/-!
# The cut edges break every cycle

`BreakCycles` searches, for every vertex in turn, the circuits through it among the
vertices after it.  A cycle of the graph is found in the round of its least vertex: the
vertices erased by then are all below it, and the full operations, whose rounds are
skipped, are on no cycle.

* `breakCycles_acyclic` — the result.
-/

namespace UpdateEngine

open Relation (TransGen ReflTransGen)

open List

lemma eraseNode_hasEdge {g : Graph} {i x y : Nat} :
    (eraseNode g i).HasEdge x y ↔ g.HasEdge x y ∧ x ≠ i ∧ (i < x → y ≠ i) := by
  unfold Graph.HasEdge eraseNode Vertex.clearEdges Vertex.eraseEdge
  by_cases hxi : x = i
  · simp [hxi]
  · by_cases hlt : i < x
    · by_cases hyi : y = i
      · simp [hxi, hlt, hyi]
      · simp [hxi, hlt, hyi]
    · simp [hxi, hlt]

/-- A cycle whose least vertex is its first. -/
structure LeastCycle (g : Graph) (m : Nat) (rest : List Nat) : Prop where
  nodup : (m :: rest).Nodup
  walk : (m :: (rest ++ [m])).IsChain g.HasEdge
  least : ∀ u ∈ rest, m < u

/-- What holds after the rounds of the vertices below `i`. -/
structure Rounds (g : Graph) (i : Nat) (b : Breaking) : Prop where
  size : b.subgraph.size = g.size
  /-- The subgraph is part of the graph. -/
  sub : ∀ x y, b.subgraph.HasEdge x y → g.HasEdge x y
  /-- Nothing at or after the last vertex searched has been erased. -/
  keeps : ∀ x y, i ≤ x + 1 → i ≤ y + 1 → g.HasEdge x y → b.subgraph.HasEdge x y
  stack : b.breaker.stack = []
  edges : ∀ e ∈ b.breaker.cutEdges, g.HasEdge e.1 e.2
  /-- The cycles found so far are cut. -/
  cut : ∀ m rest, m < i → (g.vertex m).aop.op.type.isFull = false → LeastCycle g m rest →
    ∃ e ∈ walkEdges (m :: (rest ++ [m])), e ∈ b.breaker.cutEdges

lemma rounds_zero (g : Graph) : Rounds g 0 { subgraph := g } where
  size := rfl
  sub _ _ h := h
  keeps _ _ _ _ h := h
  stack := rfl
  edges := nofun
  cut _ _ h := absurd h (Nat.not_lt_zero _)

section

variable {g : Graph} {i : Nat} {component : List Nat} {old : Nat → List Nat}

/-- The search of a round: the edges inside the component of `i`. -/
def componentSearch (g : Graph) (component : List Nat) (old : Nat → List Nat) (i : Nat) :
    Search :=
  ⟨g, fun k => if k ∈ component then (g.successors k).filter (· ∈ component) else old k, i⟩

lemma componentSearch_adj {x w : Nat} (hx : x ∈ component) (hlt : x < g.size) :
    (componentSearch g component old i).Adj x w ↔ g.HasEdge x w ∧ w ∈ component := by
  simp [Search.Adj, componentSearch, hx, Graph.mem_successors hlt]

/-- The search stays in the component, on edges of the graph. -/
lemma componentSearch_wellFormed (hi : i < g.size) (hmem : i ∈ component)
    (hlt : ∀ x ∈ component, x < g.size) : (componentSearch g component old i).WellFormed := by
  have hin : ∀ x, (componentSearch g component old i).In x → x ∈ component := by
    intro x hx
    induction hx with
    | refl => exact hmem
    | tail _ hadj ih => exact ((componentSearch_adj ih (hlt _ ih)).mp hadj).2
  exact ⟨hi, fun x w hx hadj => ((componentSearch_adj (hin x hx) (hlt x (hin x hx))).mp hadj).1⟩

lemma searching_empty (c : Search) (cut : List Edge) :
    Searching c ⟨cut, fun _ => false, fun _ => [], []⟩ where
  nodup := List.nodup_nil
  walk := .nil
  starts := nofun
  inside := nofun
  onStack := nofun
  parked := nofun
  waits := nofun
  apart := List.Pairwise.nil

open Digraph

/-- A cycle through `i` lies in the component of `i`. -/
lemma mem_component_of_cycle {rest : List Nat}
    (hcomp : ∀ x, x ∈ component ↔ g.Reach i x ∧ g.Reach x i)
    (hwalk : (i :: (rest ++ [i])).IsChain g.HasEdge) : ∀ x ∈ i :: (rest ++ [i]), x ∈ component := by
  intro x hx
  refine (hcomp x).mpr ⟨reach_of_isChain hwalk x hx, ?_⟩
  rcases mem_cons.mp hx with rfl | hx
  · exact .refl
  · rcases mem_append.mp hx with hx | hx
    · exact (reach_last_of_isChain hwalk x
        (.tail _ hx)).to_reflTransGen
    · rw [mem_singleton.mp hx]
      exact .refl

/-- A walk inside the component is one of the search. -/
lemma componentSearch_walk {l : List Nat} (hl : l.IsChain g.HasEdge)
    (hmem : ∀ x ∈ l, x ∈ component) : l.IsChain (componentSearch g component old i).Adj := by
  induction l with
  | nil => exact .nil
  | cons a l ih =>
    cases l with
    | nil => exact .singleton _
    | cons b l =>
      rw [isChain_cons_cons] at hl ⊢
      refine ⟨(componentSearch_adj (hmem a mem_cons_self) hl.1.1).mpr ⟨hl.1, ?_⟩,
        ih hl.2 fun x hx => hmem x (.tail _ hx)⟩
      exact hmem b (.tail _ mem_cons_self)

/-- The search of one vertex cuts every cycle through it. -/
lemma search_spec (old : Nat → List Nat) (hi : i < g.size) (cut : List Edge) :
    ∃ component r, execute g i = some component ∧
      circuit (componentSearch g component old i) g.size i 0
        ⟨cut, fun _ => false, fun _ => [], []⟩ = some r ∧
      r.2.stack = [] ∧ (∀ e ∈ cut, e ∈ r.2.cutEdges) ∧
      (∀ e ∈ r.2.cutEdges, e ∈ cut ∨ g.HasEdge e.1 e.2) ∧
      ∀ rest, (i :: rest).Nodup → (i :: (rest ++ [i])).IsChain g.HasEdge →
        ∃ e ∈ walkEdges (i :: (rest ++ [i])), e ∈ r.2.cutEdges := by
  obtain ⟨component, hexec, -, hcomp⟩ := execute_eq_component hi
  have hmem : i ∈ component := (hcomp i).mpr ⟨.refl, .refl⟩
  have hlt : ∀ x ∈ component, x < g.size := by
    intro x hx
    cases ((hcomp x).mp hx).1 with
    | refl => exact hi
    | tail _ hedge => exact hedge.2.1
  have hwf : (componentSearch g component old i).WellFormed :=
    componentSearch_wellFormed hi hmem hlt
  obtain ⟨r, hr, hcircled⟩ := circuit_spec hwf g.size i _ (searching_empty _ cut) rfl
    (.inl ⟨rfl, rfl⟩) le_add_self
  refine ⟨component, r, hexec, hr, hcircled.stack, hcircled.cut.keeps, hcircled.cut.adds,
    fun rest hnodup hwalk => ?_⟩
  obtain ⟨e, he, hcut⟩ := hcircled.covered rest
    ⟨hnodup, componentSearch_walk hwalk (mem_component_of_cycle hcomp hwalk)⟩
  exact ⟨e, he, hcut⟩

end

/-- One round. -/
lemma breakStep_spec {g : Graph} {i : Nat} {b : Breaking} (hi : i < g.size)
    (h : Rounds g i b) : ∃ b', breakStep g b i = some b' ∧ Rounds g (i + 1) b' := by
  cases hfull : (g.vertex i).aop.op.type.isFull with
  | true =>
    refine ⟨{ b with skippedOps := b.skippedOps + 1 }, by simp [breakStep, hfull],
      h.size, h.sub, fun x y hx hy => h.keeps x y (by omega) (by omega), h.stack, h.edges,
      fun m rest hm hnot hcycle => ?_⟩
    have hmi : m < i := by
      rcases Nat.lt_succ_iff_lt_or_eq.mp hm with hm | rfl
      · exact hm
      · simp [hfull] at hnot
    exact h.cut m rest hmi hnot hcycle
  | false =>
    -- the subgraph of the round
    obtain ⟨sub, hsub, hsize, hpart, hkeeps⟩ : ∃ sub,
        sub = (if 0 < i then eraseNode b.subgraph (i - 1) else b.subgraph) ∧
        sub.size = g.size ∧ (∀ x y, sub.HasEdge x y → g.HasEdge x y) ∧
        ∀ x y, i ≤ x → i ≤ y → g.HasEdge x y → sub.HasEdge x y := by
      refine ⟨_, rfl, ?_⟩
      split
      case isTrue hpos =>
        refine ⟨h.size, fun x y hxy => h.sub x y (eraseNode_hasEdge.mp hxy).1,
          fun x y hx hy hxy => eraseNode_hasEdge.mpr
            ⟨h.keeps x y (by omega) (by omega) hxy, by omega, fun _ => by omega⟩⟩
      case isFalse hpos =>
        exact ⟨h.size, h.sub, fun x y hx hy => h.keeps x y (by omega) (by omega)⟩
    obtain ⟨component, r, hexec, hcirc, hstack, hold, hnew, hcut⟩ :=
      search_spec b.subgraphEdges (hsize ▸ hi : i < sub.size) b.breaker.cutEdges
    refine ⟨{ b with
        subgraph := sub
        subgraphEdges := (componentSearch sub component b.subgraphEdges i).subgraphEdges
        breaker := r.2 }, ?_, hsize, hpart, fun x y hx hy => hkeeps x y (by omega) (by omega),
      hstack, fun e he => (hnew e he).elim (h.edges e) (hpart e.1 e.2),
      fun m rest hm hnot hcycle => ?_⟩
    · have hbreaker : { b.breaker with blocked := fun _ => false, blockedGraph := fun _ => [] } =
          (⟨b.breaker.cutEdges, fun _ => false, fun _ => [], []⟩ : Breaker) := by
        rw [← h.stack]
      simp only [breakStep, hfull, ← hsub, hexec, Option.bind_some, hbreaker]
      rw [show circuit ⟨sub, _, i⟩ sub.size i 0 _ = some r from hcirc]
      rfl
    · rcases Nat.lt_succ_iff_lt_or_eq.mp hm with hm | rfl
      · obtain ⟨e, he, hmem⟩ := h.cut m rest hm hnot hcycle
        exact ⟨e, he, hold e hmem⟩
      · -- the cycle is in the subgraph still
        refine hcut rest hcycle.nodup ?_
        have hge : ∀ x ∈ m :: (rest ++ [m]), m ≤ x := by
          intro x hx
          simp only [mem_cons, mem_append, not_mem_nil, or_false] at hx
          rcases hx with rfl | hx | rfl
          · exact le_rfl
          · exact (hcycle.least x hx).le
          · exact le_rfl
        exact hcycle.walk.imp_of_mem_imp fun x y hx hy hxy => hkeeps x y (hge x hx) (hge y hy) hxy

/-- All rounds. -/
lemma breakRounds_spec (g : Graph) : ∀ n, n ≤ g.size →
    ∃ b, (List.range n).foldlM (breakStep g) { subgraph := g } = some b ∧ Rounds g n b := by
  intro n
  induction n with
  | zero => exact fun _ => ⟨_, rfl, rounds_zero g⟩
  | succ n ih =>
    intro hn
    obtain ⟨b, hb, hrounds⟩ := ih (by omega)
    obtain ⟨b', hb', hrounds'⟩ := breakStep_spec (by omega) hrounds
    refine ⟨b', ?_, hrounds'⟩
    rw [range_succ, foldlM_append, hb]
    simpa using hb'

/-- **`BreakCycles` cuts every cycle.**  When full operations have no incoming edges, it
returns edges of the graph without which the graph has no cycle. -/
theorem breakCycles_acyclic (g : Graph)
    (hfull : ∀ i j, g.HasEdge i j → (g.vertex j).aop.op.type.isFull = false) :
    ∃ cut, breakCycles g = some cut ∧ (∀ e ∈ cut, g.HasEdge e.1 e.2) ∧
      Digraph.Acyclic fun i j => g.HasEdge i j ∧ (i, j) ∉ cut := by
  obtain ⟨b, hb, hrounds⟩ := breakRounds_spec g g.size le_rfl
  refine ⟨b.breaker.cutEdges, by simp [breakCycles, hb], hrounds.edges, ?_⟩
  by_contra hcyclic
  obtain ⟨m, rest, hnodup, hwalk, hleast⟩ := Digraph.exists_least_cycle hcyclic
  -- the least vertex has an edge into it, so its round was not skipped
  obtain ⟨x, hx⟩ : ∃ x, g.HasEdge x m := by
    have hreach := Digraph.reach_last_of_isChain hwalk m mem_cons_self
    obtain ⟨x, -, hx⟩ := TransGen.tail'_iff.mp hreach
    exact ⟨x, hx.1⟩
  obtain ⟨e, he, hcut⟩ := hrounds.cut m rest hx.2.1 (hfull x m hx)
    ⟨hnodup, hwalk.imp fun _ _ h => h.1, hleast⟩
  exact (forall_mem_walkEdges hwalk e he).2 hcut

/-- Two moves that overwrite each other's source, one of them its own as well, and a
full operation that waits for both. -/
def sampleGraph : Graph :=
  let edges : List Edge := [(0, 1), (1, 0), (1, 1), (2, 0), (2, 1)]
  { size := 3
    vertex := fun i =>
      { outEdges := fun j => if edges.contains (i, j) then some { extents := [⟨0, 1⟩] } else none
        aop := { name := "", op := { type := if i < 2 then .move else .replace } } } }

theorem breakCycles_acyclic_sampleGraph :
    ∃ cut, breakCycles sampleGraph = some cut ∧ (∀ e ∈ cut, sampleGraph.HasEdge e.1 e.2) ∧
      Digraph.Acyclic fun i j => sampleGraph.HasEdge i j ∧ (i, j) ∉ cut := by
  refine breakCycles_acyclic sampleGraph fun i j hij => ?_
  have hall : ∀ i < 3, ∀ j < 3, sampleGraph.HasEdge i j →
      (sampleGraph.vertex j).aop.op.type.isFull = false := by decide
  exact hall i hij.1 j hij.2.1 hij

end UpdateEngine
