import Mathlib

/-!
# Computations that read memory

* `Traced` — a value, and which bytes have been read to compute it.
-/

/-- Some bytes, by their offset and their number. -/
structure Access where
  offset : Nat
  length : Nat
  deriving DecidableEq, Repr

structure Traced (α : Type) where
  value : α
  accesses : List Access := []
  deriving DecidableEq, Repr

namespace Traced

variable {α β : Type} {n : Nat} {a : α}

instance : Monad Traced where
  pure a := { value := a }
  bind x f := { value := (f x.value).value, accesses := x.accesses ++ (f x.value).accesses }

@[simp] lemma value_pure (a : α) : (pure a : Traced α).value = a := rfl

@[simp] lemma value_bind (x : Traced α) (f : α → Traced β) :
    (x >>= f).value = (f x.value).value := rfl

@[simp] lemma value_ite (c : Prop) [Decidable c] (x y : Traced α) :
    (if c then x else y).value = if c then x.value else y.value :=
  apply_ite Traced.value c x y

/-- Only the first `n` bytes are read. -/
def Inside (n : Nat) (x : Traced α) : Prop := ∀ a ∈ x.accesses, a.offset + a.length ≤ n

instance (n : Nat) (x : Traced α) : Decidable (x.Inside n) :=
  inferInstanceAs (Decidable (∀ a ∈ x.accesses, a.offset + a.length ≤ n))

@[simp] lemma inside_pure : (pure a : Traced α).Inside n := nofun

lemma inside_access_iff {offset length : Nat} :
    Inside n ⟨a, [⟨offset, length⟩]⟩ ↔ offset + length ≤ n :=
  List.forall_mem_singleton

lemma inside_access {offset length : Nat} (h : offset + length ≤ n) :
    Inside n ⟨a, [⟨offset, length⟩]⟩ :=
  inside_access_iff.mpr h

lemma inside_bind_iff {x : Traced α} {f : α → Traced β} :
    (x >>= f).Inside n ↔ x.Inside n ∧ (f x.value).Inside n :=
  List.forall_mem_append

lemma inside_bind {x : Traced α} {f : α → Traced β} (hx : x.Inside n)
    (hf : (f x.value).Inside n) : (x >>= f).Inside n :=
  inside_bind_iff.mpr ⟨hx, hf⟩

lemma inside_ite {c : Prop} [Decidable c] {x y : Traced α} (hx : x.Inside n)
    (hy : y.Inside n) : (if c then x else y).Inside n := by
  split
  · exact hx
  · exact hy

end Traced
