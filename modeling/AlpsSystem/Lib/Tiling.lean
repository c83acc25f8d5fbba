import Mathlib

/-!
# Ranges that tile an interval

A range is an offset and a size; a range of size zero takes no place, whatever its offset is.

* `Tiles rs n` — the ranges do not overlap and together are the interval from 0 to `n`.
* `Tiles.cons_end`, `Tiles.append` — ranges are added at the end.
* `Tiles.remove` — a range is cut out, and the ranges after it move down.
-/

/-- Two ranges that do not overlap. -/
def Apart (r r' : Nat × Nat) : Prop :=
  0 < r.2 → 0 < r'.2 → r.1 + r.2 ≤ r'.1 ∨ r'.1 + r'.2 ≤ r.1

lemma Apart.symm {r r' : Nat × Nat} (h : Apart r r') : Apart r' r :=
  fun hr' hr => (h hr hr').symm

structure Tiles (rs : List (Nat × Nat)) (n : Nat) : Prop where
  inside : ∀ r ∈ rs, 0 < r.2 → r.1 + r.2 ≤ n
  disjoint : rs.Pairwise Apart
  cover : ∀ b < n, ∃ r ∈ rs, r.1 ≤ b ∧ b < r.1 + r.2

namespace Tiles

open List

variable {rs rs' : List (Nat × Nat)} {n n' o s : Nat}

lemma nil : Tiles [] 0 := ⟨nofun, List.Pairwise.nil, nofun⟩

lemma perm (h : Tiles rs n) (hperm : rs.Perm rs') : Tiles rs' n where
  inside r hr := h.inside r (hperm.mem_iff.mpr hr)
  disjoint := (hperm.pairwise_iff fun hap => hap.symm).mp h.disjoint
  cover b hb := by
    obtain ⟨r, hr, hin⟩ := h.cover b hb
    exact ⟨r, hperm.mem_iff.mp hr, hin⟩

/-- An empty range may be added anywhere. -/
lemma cons_empty (h : Tiles rs n) (o : Nat) : Tiles ((o, 0) :: rs) n where
  inside r hr hpos := by
    rcases mem_cons.mp hr with rfl | hr
    · exact absurd hpos (lt_irrefl 0)
    · exact h.inside r hr hpos
  disjoint := pairwise_cons.mpr
    ⟨fun _ _ hpos => absurd hpos (lt_irrefl 0), h.disjoint⟩
  cover b hb := by
    obtain ⟨r, hr, hin⟩ := h.cover b hb
    exact ⟨r, .tail _ hr, hin⟩

/-- An empty range may be left out. -/
lemma of_cons_empty (h : Tiles ((o, 0) :: rs) n) : Tiles rs n where
  inside r hr := h.inside r (List.mem_cons_of_mem _ hr)
  disjoint := (List.pairwise_cons.mp h.disjoint).2
  cover b hb := by
    obtain ⟨r, hr, hin⟩ := h.cover b hb
    rcases mem_cons.mp hr with rfl | hr
    · exact absurd hin.2 hin.1.not_gt
    · exact ⟨r, hr, hin⟩

/-- A range at the end. -/
lemma cons_end (h : Tiles rs n) (s : Nat) : Tiles ((n, s) :: rs) (n + s) where
  inside r hr hpos := by
    rcases mem_cons.mp hr with rfl | hr
    · exact le_rfl
    · exact (h.inside r hr hpos).trans (Nat.le_add_right n s)
  disjoint := pairwise_cons.mpr
    ⟨fun r hr _ hpos => .inr (h.inside r hr hpos), h.disjoint⟩
  cover b hb := by
    by_cases hlt : b < n
    · obtain ⟨r, hr, hin⟩ := h.cover b hlt
      exact ⟨r, .tail _ hr, hin⟩
    · exact ⟨(n, s), mem_cons_self, not_lt.mp hlt, hb⟩

/-- A range is moved up by `d` if it takes place. -/
def moveUp (d : Nat) (r : Nat × Nat) : Nat × Nat := if 0 < r.2 then (r.1 + d, r.2) else r

lemma moveUp_cases (d : Nat) (r : Nat × Nat) :
    (moveUp d r).2 = r.2 ∧ (0 < r.2 → (moveUp d r).1 = r.1 + d) := by
  unfold moveUp
  split <;> simp_all

/-- The ranges of a second interval after those of a first one. -/
lemma append (h : Tiles rs n) (h' : Tiles rs' n') :
    Tiles (rs ++ rs'.map (moveUp n)) (n + n') where
  inside r hr hpos := by
    rcases mem_append.mp hr with hr | hr
    · exact (h.inside r hr hpos).trans (Nat.le_add_right n n')
    · obtain ⟨q, hq, rfl⟩ := mem_map.mp hr
      obtain ⟨hsize, hoffset⟩ := moveUp_cases n q
      have hle := h'.inside q hq (by omega)
      omega
  disjoint := by
    refine pairwise_append.mpr ⟨h.disjoint, ?_, fun r hr r' hr' hpos hpos' => ?_⟩
    · refine pairwise_map.mpr (h'.disjoint.imp fun {q q'} hap hpos hpos' => ?_)
      obtain ⟨hsize, hoffset⟩ := moveUp_cases n q
      obtain ⟨hsize', hoffset'⟩ := moveUp_cases n q'
      have := hap (by omega) (by omega)
      omega
    · obtain ⟨q, hq, rfl⟩ := mem_map.mp hr'
      obtain ⟨hsize, hoffset⟩ := moveUp_cases n q
      have hle := h.inside r hr hpos
      omega
  cover b hb := by
    by_cases hlt : b < n
    · obtain ⟨r, hr, hin⟩ := h.cover b hlt
      exact ⟨r, mem_append_left _ hr, hin⟩
    · obtain ⟨q, hq, hin⟩ := h'.cover (b - n) (by omega)
      obtain ⟨hsize, hoffset⟩ := moveUp_cases n q
      refine ⟨moveUp n q, mem_append_right _ (mem_map_of_mem hq), ?_⟩
      omega

/-- A range after the offset `o` moves down by `s`. -/
def moveDown (o s : Nat) (r : Nat × Nat) : Nat × Nat :=
  if 0 < r.2 ∧ o < r.1 then (r.1 - s, r.2) else r

lemma moveDown_cases (o s : Nat) (r : Nat × Nat) :
    (moveDown o s r).2 = r.2 ∧ (0 < r.2 → o < r.1 → (moveDown o s r).1 = r.1 - s) ∧
      (0 < r.2 → ¬ o < r.1 → (moveDown o s r).1 = r.1) := by
  unfold moveDown
  split
  · next hmove => exact ⟨rfl, fun _ _ => rfl, fun _ hlt => absurd hmove.2 hlt⟩
  · next hstay => exact ⟨rfl, fun hpos hlt => absurd ⟨hpos, hlt⟩ hstay, fun _ _ => rfl⟩

/-- A range is cut out. -/
lemma remove (h : Tiles ((o, s) :: rs) n) (hs : 0 < s) : Tiles (rs.map (moveDown o s)) (n - s) := by
  have hcut := h.inside (o, s) mem_cons_self hs
  obtain ⟨hapart, hrest⟩ := pairwise_cons.mp h.disjoint
  -- the other ranges end before the one that is cut out or begin after it
  have hside : ∀ r ∈ rs, 0 < r.2 → o + s ≤ r.1 ∨ r.1 + r.2 ≤ o :=
    fun r hr hpos => hapart r hr hs hpos
  refine ⟨fun r hr hpos => ?_, ?_, fun b hb => ?_⟩
  · obtain ⟨q, hq, rfl⟩ := mem_map.mp hr
    obtain ⟨hsize, hdown, hstay⟩ := moveDown_cases o s q
    have hle := h.inside q (.tail _ hq) (by omega)
    have := hside q hq (by omega)
    by_cases hlt : o < q.1
    · omega
    · omega
  · refine pairwise_map.mpr ?_
    refine List.Pairwise.imp_of_mem (fun {q q'} hq hq' hap hpos hpos' => ?_) hrest
    obtain ⟨hsize, hdown, hstay⟩ := moveDown_cases o s q
    obtain ⟨hsize', hdown', hstay'⟩ := moveDown_cases o s q'
    have hside1 := hside q hq (by omega)
    have hside2 := hside q' hq' (by omega)
    have := hap (by omega) (by omega)
    omega
  · -- the byte that is `b` after the cut
    obtain ⟨r, hr, hin⟩ := h.cover (if b < o then b else b + s) (by split <;> omega)
    rcases mem_cons.mp hr with rfl | hr
    · split at hin <;> omega
    · obtain ⟨hsize, hdown, hstay⟩ := moveDown_cases o s r
      refine ⟨moveDown o s r, mem_map_of_mem hr, ?_⟩
      split at hin <;> omega

end Tiles
