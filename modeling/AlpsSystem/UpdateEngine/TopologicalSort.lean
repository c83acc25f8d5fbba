import AlpsSystem.UpdateEngine.Graph

/-!
# The topological sort of the operations

The depth-first search of `topological_sort.cc`, which puts the operations in an order in which each
comes after those it depends on.

* `topologicalSort_sorts` — on a graph without cycles, every vertex is put out once, after its
  successors.
-/

namespace UpdateEngine

open Relation (TransGen)

open List

/-- The visited nodes and the nodes put out. -/
abbrev SortState := List Nat × List Nat

/-- `TopologicalSortVisit`; the calls are nested at most as deep as there are vertices. -/
def topologicalSortVisit (g : Graph) : (depth : Nat) → SortState → Nat → SortState
  | 0, s, _ => s
  | depth + 1, s, node =>
    if node ∈ s.1 then s
    else
      -- visit all children, then this node
      let s := (g.successors node).foldl (topologicalSortVisit g depth) (node :: s.1, s.2)
      (s.1, s.2 ++ [node])

/-- `TopologicalSort`, with an empty vector to start from. -/
def topologicalSort (g : Graph) (depth : Nat) : List Nat :=
  ((List.range g.size).foldl (topologicalSortVisit g depth) ([], [])).2

variable {g : Graph} {s s' : SortState} {depth node : Nat}

/-- Between two visits: no node is visited or put out twice, and the successors of a node that is
put out stand before it. -/
structure Sorting (g : Graph) (s : SortState) : Prop where
  nodup : s.1.Nodup
  lt : ∀ v ∈ s.1, v < g.size
  nodes_nodup : s.2.Nodup
  visited : s.2 ⊆ s.1
  ordered : ∀ a ∈ s.2, ∀ b, g.HasEdge a b → s.2.idxOf b < s.2.idxOf a

/-- The nodes whose visit is not over. -/
def SortState.Open (s : SortState) (v : Nat) : Prop := v ∈ s.1 ∧ v ∉ s.2

/-- What a visit leaves: more nodes, and none of them open that was not open before. -/
structure Visited (g : Graph) (s s' : SortState) : Prop extends Sorting g s' where
  more : s.1 ⊆ s'.1
  nodes : s.2 ⊆ s'.2
  same : ∀ v, s'.Open v ↔ s.Open v

/-- A node can be visited if there is room for the calls and the open nodes lead to it. -/
structure Ready (g : Graph) (s : SortState) (depth node : Nat) : Prop where
  room : g.size < depth + s.1.length
  node_lt : node < g.size
  leads : ∀ v, s.Open v → TransGen g.HasEdge v node

lemma Ready.mono (h : Ready g s depth node) (hv : Visited g s s') (hs : s.1.Nodup) :
    Ready g s' depth node where
  room := Nat.lt_of_lt_of_le h.room (Nat.add_le_add_left (hs.subperm hv.more).length_le _)
  node_lt := h.node_lt
  leads v hopen := h.leads v ((hv.same v).mp hopen)

/-- A row of visits, if a single one does as it should. -/
lemma visits_spec {visit : SortState → Nat → SortState}
    (hvisit : ∀ s node, Sorting g s → Ready g s depth node →
      Visited g s (visit s node) ∧ node ∈ (visit s node).2) (nodes : List Nat) :
    ∀ s, Sorting g s → (∀ node ∈ nodes, Ready g s depth node) →
      Visited g s (nodes.foldl visit s) ∧ nodes ⊆ (nodes.foldl visit s).2 := by
  induction nodes with
  | nil =>
    intro s hs _
    exact ⟨⟨hs, fun _ h => h, fun _ h => h, fun _ => Iff.rfl⟩, nil_subset _⟩
  | cons node rest ih =>
    intro s hs hready
    obtain ⟨hfirst, hnode⟩ := hvisit s node hs (hready node mem_cons_self)
    obtain ⟨hrest, hall⟩ := ih _ hfirst.toSorting fun w hw =>
      (hready w (mem_cons_of_mem node hw)).mono hfirst hs.nodup
    refine ⟨⟨hrest.toSorting, fun _ h => hrest.more (hfirst.more h),
      fun _ h => hrest.nodes (hfirst.nodes h), fun v => (hrest.same v).trans (hfirst.same v)⟩, ?_⟩
    exact cons_subset.mpr ⟨hrest.nodes hnode, hall⟩

/-- **A visit puts a node out after its successors.** -/
theorem visit_spec (hacyclic : Digraph.Acyclic g.HasEdge) :
    ∀ depth s node, Sorting g s → Ready g s depth node →
      Visited g s (topologicalSortVisit g depth s node) ∧
        node ∈ (topologicalSortVisit g depth s node).2 := by
  intro depth
  induction depth with
  | zero =>
    intro s node hs hready
    have hle : s.1.length ≤ g.size := by
      simpa using (hs.nodup.subperm fun v hv => mem_range.mpr (hs.lt v hv)).length_le
    have := hready.room
    omega
  | succ depth ih =>
    intro s node hs hready
    rw [topologicalSortVisit]
    split
    · -- an open node would close a cycle
      rename_i hin
      refine ⟨⟨hs, fun _ h => h, fun _ h => h, fun _ => Iff.rfl⟩, ?_⟩
      by_contra hout
      exact hacyclic node (hready.leads node ⟨hin, hout⟩)
    · rename_i hnew
      have hnotOut : node ∉ s.2 := fun h => hnew (hs.visited h)
      have hstart : Sorting g (node :: s.1, s.2) :=
        ⟨nodup_cons.mpr ⟨hnew, hs.nodup⟩, forall_mem_cons.mpr ⟨hready.node_lt, hs.lt⟩,
          hs.nodes_nodup, fun _ h => .tail _ (hs.visited h), hs.ordered⟩
      obtain ⟨hrow, hall⟩ := visits_spec ih (g.successors node) _ hstart fun w hw => by
        have hedge := (Graph.mem_successors hready.node_lt).mp hw
        refine ⟨by simpa [add_assoc, add_comm 1] using hready.room, hedge.2.1, ?_⟩
        rintro v ⟨hv, hout⟩
        rcases mem_cons.mp hv with rfl | hv
        · exact .single hedge
        · exact (hready.leads v ⟨hv, hout⟩).tail hedge
      generalize (g.successors node).foldl _ _ = t at hrow hall
      dsimp only
      have hopen := (hrow.same node).mpr ⟨mem_cons_self, hnotOut⟩
      refine ⟨⟨⟨hrow.nodup, hrow.lt, ?_, ?_, ?_⟩, ?_, ?_, ?_⟩, by simp⟩
      · exact concat_eq_append .. ▸ hrow.nodes_nodup.concat hopen.2
      · exact append_subset.mpr ⟨hrow.visited, by simpa using hopen.1⟩
      · intro a ha b hb
        rcases mem_append.mp ha with ha | ha
        · have hlt := hrow.ordered a ha b hb
          have hmem := idxOf_lt_length_iff.mp (hlt.trans (idxOf_lt_length_of_mem ha))
          rwa [idxOf_append_of_mem hmem, idxOf_append_of_mem ha]
        · obtain rfl := mem_singleton.mp ha
          have hmem := hall ((Graph.mem_successors hready.node_lt).mpr hb)
          rw [idxOf_append_of_mem hmem, idxOf_append_of_notMem hopen.2]
          exact Nat.lt_add_right _ (idxOf_lt_length_of_mem hmem)
      · exact fun _ h => hrow.more (.tail _ h)
      · exact fun _ h => mem_append_left _ (hrow.nodes h)
      · intro v
        have hsame := hrow.same v
        have hne : v ∈ s.1 → v ≠ node := fun hv heq => hnew (heq ▸ hv)
        simp only [SortState.Open, mem_append, mem_cons]
          at hsame ⊢
        tauto

/-- **`TopologicalSort` sorts.** On a graph without cycles the output lists every vertex once, and
for every edge `a → b` the vertex `b` stands before `a`. -/
theorem topologicalSort_sorts (g : Graph) (hacyclic : Digraph.Acyclic g.HasEdge) (depth : Nat)
    (hdepth : g.size < depth) :
    (topologicalSort g depth).Perm (List.range g.size) ∧
      ∀ a b, g.HasEdge a b →
        (topologicalSort g depth).idxOf b < (topologicalSort g depth).idxOf a := by
  obtain ⟨hsorted, hall⟩ := visits_spec (visit_spec hacyclic depth) (List.range g.size) ([], [])
    ⟨.nil, by simp, .nil, nil_subset _, by simp⟩
    fun v hv => ⟨hdepth, mem_range.mp hv, fun _ h => absurd h.1 not_mem_nil⟩
  constructor
  · refine (perm_ext_iff_of_nodup hsorted.nodes_nodup nodup_range).mpr fun v => ?_
    exact ⟨fun hv => mem_range.mpr (hsorted.lt v (hsorted.visited hv)), fun hv => hall hv⟩
  · exact fun a b hedge => hsorted.ordered a (hall (mem_range.mpr hedge.1)) b hedge

/-- Three operations: the first needs both others, and the second the third. -/
def sampleOrder : Graph where
  size := 3
  vertex i := { outEdges := fun j => if i < j then some {} else none }

theorem topologicalSort_sorts_sampleOrder :
    Digraph.Acyclic sampleOrder.HasEdge ∧ topologicalSort sampleOrder 4 = [2, 1, 0] ∧
      (topologicalSort sampleOrder 4).Perm (List.range 3) := by
  have hlt : ∀ i j, sampleOrder.HasEdge i j → i < j := by
    rintro i j ⟨-, -, h⟩
    by_contra hle
    simp [sampleOrder, hle] at h
  have hacyclic : Digraph.Acyclic sampleOrder.HasEdge := fun v hv =>
    lt_irrefl v (by simpa [Relation.transGen_eq_self] using TransGen.mono hlt _ _ hv)
  exact ⟨hacyclic, by decide, (topologicalSort_sorts sampleOrder hacyclic 4 (by decide)).1⟩

end UpdateEngine
