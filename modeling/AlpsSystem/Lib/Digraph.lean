import Mathlib

/-!
# Directed graphs: walks, simple paths and cycles

Facts about the walks of a relation `E`, written as lists of vertices with
`List.IsChain E`.

* `exists_simple_path` — a reachable vertex is reached without visiting a vertex
  twice.
* `Acyclic`, `exists_least_cycle` — a relation on `Nat` that is not acyclic has a
  simple cycle that starts at its least vertex.
-/

namespace Digraph

open Relation (ReflTransGen TransGen)

open List

variable {α : Type} {E : α → α → Prop} {l : List α}

/-- No closed walk. -/
def Acyclic (E : α → α → Prop) : Prop := ∀ v, ¬ TransGen E v v

/-- The vertices of a walk are reachable from its first one. -/
lemma reach_of_isChain {x : α} (h : (x :: l).IsChain E) : ∀ y ∈ x :: l, ReflTransGen E x y := by
  induction l generalizing x with
  | nil =>
    intro y hy
    rw [mem_singleton] at hy
    rw [hy]
  | cons z l ih =>
    intro y hy
    rw [isChain_cons_cons] at h
    rcases mem_cons.mp hy with rfl | hy
    · exact .refl
    · exact .head h.1 (ih h.2 y hy)

/-- The last vertex of a walk is reachable from all of them. -/
lemma reach_last_of_isChain {y : α} (h : (l ++ [y]).IsChain E) : ∀ x ∈ l, TransGen E x y := by
  induction l with
  | nil => intro x hx; cases hx
  | cons z l ih =>
    intro x hx
    have hz : TransGen E z y := by
      cases l with
      | nil =>
        rw [cons_append, nil_append, isChain_cons_cons] at h
        exact .single h.1
      | cons z' l =>
        rw [cons_append, cons_append, isChain_cons_cons] at h
        exact .head h.1 (ih h.2 z' mem_cons_self)
    rcases mem_cons.mp hx with rfl | hx
    · exact hz
    · exact ih h.tail x hx

/-- A reachable vertex is reached by a walk that visits no vertex twice. -/
lemma exists_simple_path {x y : α} (h : ReflTransGen E x y) :
    ∃ l, (l ++ [y]).Nodup ∧ (l ++ [y]).IsChain E ∧ (l ++ [y]).head? = some x := by
  classical
  induction h using ReflTransGen.head_induction_on with
  | refl => exact ⟨[], by simp, by simp, by simp⟩
  | @head x z hxz _ ih =>
    obtain ⟨l, hnd, hchain, hhead⟩ := ih
    by_cases hx : x ∈ l ++ [y]
    · -- cut the loop: go on from where `x` already is
      rcases mem_append.mp hx with hxl | hxy
      · obtain ⟨l1, l2, rfl⟩ := append_of_mem hxl
        refine ⟨x :: l2, ?_, ?_, by simp⟩
        · exact hnd.sublist (by simp)
        · rw [append_assoc] at hchain
          exact (isChain_append.mp hchain).2.1
      · rw [mem_singleton] at hxy
        subst hxy
        exact ⟨[], by simp, by simp, by simp⟩
    · refine ⟨x :: l, ?_, ?_, by simp⟩
      · exact nodup_cons.mpr ⟨hx, hnd⟩
      · rw [cons_append]
        cases hl : l ++ [y] with
        | nil => simp at hl
        | cons z' l' =>
          rw [hl] at hchain hhead
          obtain rfl : z' = z := by simpa using hhead
          exact isChain_cons_cons.mpr ⟨hxz, hchain⟩

/-- **A graph with a cycle has a simple cycle that starts at its least vertex.** -/
theorem exists_least_cycle {E : Nat → Nat → Prop} (h : ¬ Acyclic E) :
    ∃ m rest, (m :: rest).Nodup ∧ (m :: (rest ++ [m])).IsChain E ∧ ∀ u ∈ rest, m < u := by
  classical
  unfold Acyclic at h
  rw [not_forall] at h
  obtain ⟨v, hv⟩ := h
  have hex : ∃ m, TransGen E m m := ⟨v, not_not.mp hv⟩
  obtain ⟨x, hmx, hxm⟩ := TransGen.head'_iff.mp (Nat.find_spec hex)
  obtain ⟨rest, hnd, hchain, hhead⟩ := exists_simple_path hxm
  have hcycle : (Nat.find hex :: (rest ++ [Nat.find hex])).IsChain E := by
    cases hl : rest ++ [Nat.find hex] with
    | nil => simp at hl
    | cons z l =>
      rw [hl] at hchain hhead
      obtain rfl : z = x := by simpa using hhead
      exact isChain_cons_cons.mpr ⟨hmx, hchain⟩
  refine ⟨Nat.find hex, rest, ?_, hcycle, ?_⟩
  · have := nodup_append.mp hnd
    refine nodup_cons.mpr ⟨fun hm => ?_, this.1⟩
    exact this.2.2 _ hm _ (by simp) rfl
  · intro u hu
    -- every vertex of the cycle is on a cycle, so none is below the least such vertex
    have hum : TransGen E u (Nat.find hex) := reach_last_of_isChain hchain u hu
    have hmu : ReflTransGen E (Nat.find hex) u :=
      reach_of_isChain hcycle u (by simp [hu])
    have hle : Nat.find hex ≤ u := Nat.find_min' hex (hum.trans_left hmu)
    refine Nat.lt_of_le_of_ne hle ?_
    rintro heq
    have := (nodup_append.mp hnd).2.2 u hu (Nat.find hex) (by simp)
    exact this heq.symm

end Digraph
