import AlpsSystem.Lib.Digraph

/-!
# Operations and their dependency graph

The types the delta generator works with: extents, install operations, and the graph
over the operations in which an edge `A → B` says that `B` must be complete before
`A` runs.

* `EdgeProperties`, `Vertex`, `Graph` — from `graph_types.h`.  The edge map of a vertex
  is a function; its keys are visited in increasing order, as `std::map` does.
-/

namespace UpdateEngine

/-- A run of blocks. -/
structure Extent where
  startBlock : UInt64
  numBlocks : UInt64
  deriving DecidableEq, Repr

/-- The start block that marks a hole in a file. -/
def kSparseHole : UInt64 := 0xFFFFFFFFFFFFFFFF

inductive OperationType where
  | replace
  | replaceBz
  | move
  | bsdiff
  | sourceCopy
  | sourceBsdiff
  | zero
  | discard
  | replaceXz
  | imgdiff
  deriving DecidableEq, Repr

/-- The operations that need no old data. -/
def OperationType.isFull : OperationType → Bool
  | .replace | .replaceBz => true
  | _ => false

/-- An install operation; an optional field that is not set is `none` or empty. -/
structure InstallOperation where
  type : OperationType
  dataOffset : Option UInt32 := none
  dataLength : Option UInt32 := none
  srcExtents : List Extent := []
  srcLength : Option UInt64 := none
  dstExtents : List Extent := []
  dstLength : Option UInt64 := none
  dataSha256Hash : List UInt8 := []
  srcSha256Hash : List UInt8 := []
  deriving DecidableEq, Repr

/-- An operation with the name of the file it belongs to. -/
structure AnnotatedOperation where
  name : String
  op : InstallOperation
  deriving DecidableEq, Repr

structure EdgeProperties where
  /-- Read-before: the target must have read these blocks before the source runs. -/
  extents : List Extent := []
  /-- Write-before: the target must have written these blocks before the source runs. -/
  writeExtents : List Extent := []
  deriving DecidableEq, Repr

/-- A vertex.  The fields of the graph algorithms (`subgraph_edges`, `index`, `lowlink`)
are kept with the algorithms. -/
structure Vertex where
  valid : Bool := true
  outEdges : Nat → Option EdgeProperties := fun _ => none
  aop : AnnotatedOperation := { name := "", op := { type := .replace } }

/-- A vector of vertices: `vertex` is read below `size` only. -/
structure Graph where
  size : Nat
  vertex : Nat → Vertex

abbrev Edge := Nat × Nat

namespace Graph

/-- The keys of the edge map of a vertex, in order. -/
def successors (g : Graph) (i : Nat) : List Nat :=
  (List.range g.size).filter fun j => ((g.vertex i).outEdges j).isSome

/-- There is an edge `i → j` between two vertices of the graph. -/
def HasEdge (g : Graph) (i j : Nat) : Prop :=
  i < g.size ∧ j < g.size ∧ ((g.vertex i).outEdges j).isSome

instance (g : Graph) (i j : Nat) : Decidable (g.HasEdge i j) :=
  inferInstanceAs (Decidable (_ ∧ _ ∧ _))

lemma mem_successors {g : Graph} {i j : Nat} (hi : i < g.size) :
    j ∈ g.successors i ↔ g.HasEdge i j := by
  unfold successors HasEdge
  rw [List.mem_filter, List.mem_range]
  tauto

end Graph

namespace Vertex

/-- `out_edges.erase`. -/
def eraseEdge (v : Vertex) (j : Nat) : Vertex :=
  { v with outEdges := fun k => if k = j then none else v.outEdges k }

/-- `out_edges.clear`. -/
def clearEdges (v : Vertex) : Vertex := { v with outEdges := fun _ => none }

end Vertex

/-- `EdgeWeight`: the number of blocks to read before, holes not counted; `none` when
there is no such edge, where the code would follow an end iterator. -/
def edgeWeight (g : Graph) (e : Edge) : Option UInt64 :=
  ((g.vertex e.1).outEdges e.2).map fun p =>
    p.extents.foldl
      (fun weight x => if x.startBlock ≠ kSparseHole then weight + x.numBlocks else weight) 0

end UpdateEngine
