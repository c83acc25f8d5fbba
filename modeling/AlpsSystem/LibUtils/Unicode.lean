import Mathlib

/-!
# UTF-16 strings

Functions of `Unicode.cpp` on strings of 16-bit units.  A pointer is the list of the units from
there on, and `none` a read behind the last one.

* `strzcmp16_order_iff` — which counted strings are ordered.
* `strings_copied_found_iff` — what `strncpy16` copies, and what `strstr16` finds.
-/

namespace Unicode

open List

/-! ## Counted strings -/

def strzcmp16 : List UInt16 → List UInt16 → Int
  | a :: s1, b :: s2 =>
    let d := (a.toNat : Int) - b.toNat
    if d ≠ 0 then d else strzcmp16 s1 s2
  | [], [] => 0
  | [], b :: _ => 0 - b.toNat
  | a :: _, [] => a.toNat - 0

variable {s t : List UInt16}

lemma strzcmp16_swap (s t : List UInt16) : strzcmp16 t s = -strzcmp16 s t := by
  fun_induction strzcmp16 s t with
  | case1 a s1 b s2 d hd => rw [strzcmp16, if_pos (by omega)]; omega
  | case2 a s1 b s2 d hd ih => rw [strzcmp16, if_neg (by omega), ih]
  | case3 => rfl
  | case4 | case5 => simp [strzcmp16]

/-- The order is the lexicographic one, unless the first string goes on with a zero unit where the
second one ends. -/
lemma strzcmp16_le (h : ¬ t ++ [0] <+: s) : strzcmp16 s t ≤ 0 ↔ s ≤ t := by
  fun_induction strzcmp16 s t with
  | case1 a s1 b s2 d hd =>
    have hne : a ≠ b := by
      rintro rfl
      exact hd (sub_self _)
    rw [cons_le_cons_iff, UInt16.lt_iff_toNat_lt]
    simp only [hne, false_and, or_false]
    omega
  | case2 a s1 b s2 d hd ih =>
    obtain rfl : a = b := UInt16.toNat_inj.mp (by omega)
    have hrest := ih fun hprefix => h ((prefix_cons_inj a).mpr hprefix)
    simp [cons_le_cons_iff, hrest]
  | case3 | case4 => simp
  | case5 a s1 =>
    have ha : a.toNat ≠ 0 := by
      intro h0
      obtain rfl : a = 0 := UInt16.toNat_inj.mp h0
      exact h (prefix_append [0] s1)
    simpa using ha

lemma strzcmp16_append_zero (s t : List UInt16) : strzcmp16 s (s ++ 0 :: t) = 0 := by
  induction s with
  | nil => rfl
  | cons a s ih => rw [cons_append, strzcmp16, if_neg (by simp), ih]

/-- **Counted strings are ordered** exactly if none of them is the beginning of another one that
goes on with a zero unit.  The sign is reversed with the arguments for all strings. -/
theorem strzcmp16_order_iff (strings : Set (List UInt16)) :
    (∀ s t, strzcmp16 t s = -strzcmp16 s t) ∧
    ((∀ s ∈ strings, ∀ t ∈ strings, (strzcmp16 s t = 0 ↔ s = t) ∧
      ∀ u ∈ strings, strzcmp16 s t ≤ 0 → strzcmp16 t u ≤ 0 → strzcmp16 s u ≤ 0) ↔
    ∀ s ∈ strings, ∀ t ∈ strings, ¬ s ++ [0] <+: t) := by
  refine ⟨strzcmp16_swap, fun h s hs t ht => ?_, fun h s hs t ht => ⟨?_, ?_⟩⟩
  · rintro ⟨rest, rfl⟩
    rw [append_assoc] at ht
    have heq := (h s hs _ ht).1.mp (strzcmp16_append_zero s rest)
    simp at heq
  · have hiff : s ≤ t ∧ t ≤ s ↔ s = t :=
      ⟨fun h => List.le_antisymm h.1 h.2, fun h => h ▸ ⟨List.le_refl _, List.le_refl _⟩⟩
    rw [← hiff, ← strzcmp16_le (h t ht s hs), ← strzcmp16_le (h s hs t ht), strzcmp16_swap s t]
    omega
  · intro u hu hst htu
    rw [strzcmp16_le (h t ht s hs)] at hst
    rw [strzcmp16_le (h u hu t ht)] at htu
    exact (strzcmp16_le (h u hu s hs)).mpr (List.le_trans hst htu)

theorem strzcmp16_zero_unit : strzcmp16 [] [0] = 0 ∧
    strzcmp16 [0, 5] [] ≤ 0 ∧ strzcmp16 [] [0] ≤ 0 ∧ ¬ strzcmp16 [0, 5] [0] ≤ 0 := by
  decide

/-! ## Strings with a terminator -/

/-- A unit after the conversion to `char`, which is signed on some platforms. -/
def toChar (signed : Bool) (c : UInt16) : UInt16 :=
  if signed ∧ c % 256 ≥ 128 then c % 256 + 0xff00 else c % 256

/-- The units that `strncpy16` writes. -/
def strncpy16 (signed : Bool) : (src : List UInt16) → Nat → Option (List UInt16)
  | _, 0 => some [0]
  | [], _ + 1 => none
  | c :: src, n + 1 =>
    let ch := toChar signed c
    if ch = 0 then some [ch, 0] else (strncpy16 signed src n).map (ch :: ·)

def strlen16 : List UInt16 → Option Nat
  | [] => none
  | c :: s => if c = 0 then some 0 else (strlen16 s).map (· + 1)

def strncmp16 : List UInt16 → List UInt16 → Nat → Option Int
  | _, _, 0 => some 0
  | a :: s1, b :: s2, n + 1 =>
    let d := (a.toNat : Int) - b.toNat
    if d ≠ 0 ∨ a = 0 then some d else strncmp16 s1 s2 n
  | _, _, _ + 1 => none

/-- The two loops of `strstr16`; `some none` is `nullptr`. -/
def search (needle : UInt16) (target : List UInt16) (len : Nat) :
    (src : List UInt16) → Option (Option (List UInt16))
  | [] => none
  | c :: src =>
    if c = 0 then some none
    else if c ≠ needle then search needle target len src
    else (strncmp16 src target len).bind fun d =>
      if d ≠ 0 then search needle target len src else some (some (c :: src))

def strstr16 (src : List UInt16) : (target : List UInt16) → Option (Option (List UInt16))
  | [] => none
  | needle :: target => (strlen16 target).bind fun len =>
    if needle ≠ 0 then search needle target len src else some (some src)

/-- The units that `strncpy16` should write. -/
def copied (s : List UInt16) (n : Nat) : List UInt16 :=
  s.take n ++ 0 :: if s.length < n then [0] else []

lemma strncpy16_eq_iff (signed : Bool) (hs : 0 ∉ s) (n : Nat) :
    strncpy16 signed (s ++ [0]) n = some (copied s n) ↔ ∀ c ∈ s.take n, toChar signed c = c := by
  induction n generalizing s with
  | zero => simp [strncpy16, copied]
  | succ n ih =>
    cases s with
    | nil => cases signed <;> simp [strncpy16, copied, toChar]
    | cons c s =>
      rw [mem_cons, not_or] at hs
      have hcons : copied (c :: s) (n + 1) = c :: copied s n := by simp [copied]
      rw [take_succ_cons, forall_mem_cons, ← ih hs.2, cons_append, strncpy16, hcons]
      by_cases hzero : toChar signed c = 0
      · rw [if_pos hzero]
        -- a unit that becomes the terminator is not copied
        have hne : toChar signed c ≠ c := hzero ▸ hs.1
        simp [hne]
      · rw [if_neg hzero, Option.map_eq_some_iff]
        grind

lemma strlen16_eq (h : 0 ∉ s) : strlen16 (s ++ [0]) = some s.length := by
  induction s with
  | nil => rfl
  | cons c s ih =>
    rw [mem_cons, not_or] at h
    rw [cons_append, strlen16, if_neg (Ne.symm h.1), ih h.2]
    rfl

/-- The comparison says whether the target is there, and ends at the terminator of the source. -/
lemma strncmp16_eq (hs : 0 ∉ s) (ht : 0 ∉ t) :
    ∃ d, strncmp16 (s ++ [0]) (t ++ [0]) t.length = some d ∧ (d = 0 ↔ t.isPrefixOf s) := by
  induction t generalizing s with
  | nil => exact ⟨0, by cases s <;> rfl, by simp⟩
  | cons b t ih =>
    have hb := (ne_of_not_mem_cons ht).symm
    cases s with
    | nil =>
      refine ⟨0 - b.toNat, by simp [strncmp16], ?_⟩
      simpa [isPrefixOf, ← UInt16.toNat_inj] using hb
    | cons a s =>
      simp only [cons_append, length_cons, strncmp16, isPrefixOf_cons_cons, Bool.and_eq_true,
        beq_iff_eq]
      by_cases hd : (a.toNat : Int) - b.toNat = 0
      · obtain rfl : a = b := UInt16.toNat_inj.mp (by omega)
        simpa [hb] using ih (not_mem_of_not_mem_cons hs) (not_mem_of_not_mem_cons ht)
      · rw [if_pos (.inl hd)]
        refine ⟨_, rfl, iff_of_false hd ?_⟩
        rintro ⟨rfl, -⟩
        exact hd (sub_self _)

lemma search_eq {needle : UInt16} (ht : 0 ∉ t) (hs : 0 ∉ s) :
    search needle (t ++ [0]) t.length (s ++ [0]) =
      some ((s.tails.find? (needle :: t).isPrefixOf).map (· ++ [0])) := by
  induction s with
  | nil => simp [search, isPrefixOf]
  | cons c s ih =>
    have hs' := not_mem_of_not_mem_cons hs
    rw [tails_cons, find?_cons, isPrefixOf_cons_cons, cons_append, search,
      if_neg (ne_of_not_mem_cons hs).symm, ih hs']
    by_cases hc : c = needle
    · subst hc
      obtain ⟨d, hd, hiff⟩ := strncmp16_eq hs' ht
      rw [if_neg (by simp), hd, Option.bind_some]
      by_cases h0 : d = 0
      · simp [h0, hiff.mp h0]
      · simp [h0, hiff.not.mp h0]
    · rw [if_pos hc, beq_eq_false_iff_ne.mpr (Ne.symm hc), Bool.false_and]

/-- **Strings are copied and found**, without reads behind a terminator: `strncpy16` copies a string
exactly if none of the units to be copied changes as a `char`, and `strstr16` answers with the first
of the `tails` of the source that begins with the target exactly if the target is not empty. -/
theorem strings_copied_found_iff (s t : {s : List UInt16 // 0 ∉ s}) (signed : Bool) (n : Nat) :
    (strncpy16 signed (s.1 ++ [0]) n = some (copied s.1 n) ↔
      ∀ c ∈ s.1.take n, toChar signed c = c) ∧
    (strstr16 (s.1 ++ [0]) (t.1 ++ [0]) = some ((s.1.tails.find? t.1.isPrefixOf).map (· ++ [0])) ↔
      t.1 ≠ []) := by
  obtain ⟨s, hs⟩ := s
  obtain ⟨t, ht⟩ := t
  refine ⟨strncpy16_eq_iff signed hs n, ?_⟩
  cases t with
  | nil => simp [strstr16, strlen16]
  | cons needle t =>
    have ht' := not_mem_of_not_mem_cons ht
    rw [cons_append, strstr16, strlen16_eq ht', Option.bind_some,
      if_pos (ne_of_not_mem_cons ht).symm, search_eq ht' hs]
    simp

theorem strings_cut_missed :
    strncpy16 true [0x100, 0] 1 = some [0, 0] ∧ strstr16 [0] [0] = none := by
  decide

end Unicode
