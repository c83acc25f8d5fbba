import Mathlib

/-!
# Binary search

The search of a key among `n` elements, which are compared with it by their indices.

* `halve_found`, `halve_complete` — in sorted elements it finds the key if it is there.
-/

namespace HalvingSearch

/-- The search among the `lim` elements from `base` on. -/
def halve (cmp : Nat → Ordering) : (fuel base lim : Nat) → Option Nat × List Nat
  | 0, _, _ => (none, [])
  | fuel + 1, base, lim =>
    if lim = 0 then (none, [])
    else
      let p := base + lim / 2
      match cmp p with
      | .eq => (some p, [p])
      | .gt => let r := halve cmp fuel (p + 1) ((lim - 1) / 2); (r.1, p :: r.2)
      | .lt => let r := halve cmp fuel base (lim / 2); (r.1, p :: r.2)

variable {cmp : Nat → Ordering} {fuel base lim i : Nat}

lemma halve_probes (h : i ∈ (halve cmp fuel base lim).2) : base ≤ i ∧ i < base + lim := by
  induction fuel generalizing base lim with
  | zero => cases h
  | succ fuel ih =>
    unfold halve at h
    split at h
    · cases h
    dsimp only at h
    split at h
    · obtain rfl := List.mem_singleton.mp h
      omega
    · rcases List.mem_cons.mp h with rfl | h
      · omega
      · have := ih h
        omega
    · rcases List.mem_cons.mp h with rfl | h
      · omega
      · have := ih h
        omega

/-- What is found compares equal. -/
lemma halve_found (h : (halve cmp fuel base lim).1 = some i) :
    cmp i = .eq ∧ base ≤ i ∧ i < base + lim := by
  induction fuel generalizing base lim with
  | zero => cases h
  | succ fuel ih =>
    unfold halve at h
    split at h
    · cases h
    dsimp only at h
    split at h
    · next heq =>
      cases h
      exact ⟨heq, by omega⟩
    · obtain ⟨heq, hle, hlt⟩ := ih h
      exact ⟨heq, by omega⟩
    · obtain ⟨heq, hle, hlt⟩ := ih h
      exact ⟨heq, by omega⟩

/-- In sorted elements, a key that is there is found. -/
lemma halve_complete {key : Nat → Nat} {k : Nat} (hfuel : lim ≤ fuel)
    (hsorted : ∀ i j, base ≤ i → i ≤ j → j < base + lim → key i ≤ key j)
    (hle : base ≤ i) (hlt : i < base + lim) (hkey : key i = k) :
    (halve (fun i => compare k (key i)) fuel base lim).1 ≠ none := by
  induction fuel generalizing base lim with
  | zero => omega
  | succ fuel ih =>
    unfold halve
    rw [if_neg (by omega)]
    dsimp only
    split
    · exact Option.some_ne_none _
    · next hgt =>
      -- the key is larger, and so is the index
      have hlarger := Nat.compare_eq_gt.mp hgt
      have hright : base + lim / 2 < i := by
        by_contra hleft
        have := hsorted i (base + lim / 2) hle (by omega) (by omega)
        omega
      exact ih (by omega) (fun i j hi hij hj => hsorted i j (by omega) hij (by omega)) hright
        (by omega)
    · next hlt' =>
      have hsmaller := Nat.compare_eq_lt.mp hlt'
      have hleft : i < base + lim / 2 := by
        by_contra hright
        have := hsorted (base + lim / 2) i (by omega) (by omega) hlt
        omega
      exact ih (by omega) (fun i j hi hij hj => hsorted i j hi hij (by omega)) hle hleft

end HalvingSearch
