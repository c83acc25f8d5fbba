import AlpsSystem.Lib.LittleEndian

/-!
# Bytes in memory

A memory has a byte at every offset.

* `slice`, `load` — the bytes from an offset on, and the little-endian number they stand for.
* `copy`, `store` — what `memcpy` and an assignment write.
* `slice_congr`, `load_congr` — what is read depends on the bytes that are read only.
* `copy_outside`, `load_store` — what is written, and what stays.
-/

abbrev Memory := Nat → UInt8

namespace Memory

variable {m m' from' : Memory} {dst src offset offset' width length value b : Nat}

def slice (m : Memory) (offset length : Nat) : List UInt8 :=
  (List.range length).map fun k => m (offset + k)

/-- A number of `width` bytes. -/
def load (m : Memory) (offset width : Nat) : Nat := LittleEndian.decode (m.slice offset width)

/-- `length` bytes of another memory, or of the same one, are copied to `dst`. -/
def copy (m : Memory) (dst : Nat) (source : Memory) (src length : Nat) : Memory := fun b =>
  if dst ≤ b ∧ b < dst + length then source (src + (b - dst)) else m b

/-- The bytes of a list, and zeros. -/
def ofList (l : List UInt8) : Memory := fun k => l.getD k 0

def store (m : Memory) (offset width value : Nat) : Memory :=
  m.copy offset (ofList (LittleEndian.encode width value)) 0 width

/-! ## Reading -/

@[simp] lemma length_slice (m : Memory) (offset length : Nat) :
    (m.slice offset length).length = length := by
  simp [slice]

lemma slice_congr (h : ∀ k < length, m' (offset' + k) = m (offset + k)) :
    m'.slice offset' length = m.slice offset length :=
  List.map_congr_left fun k hk => h k (List.mem_range.mp hk)

open LittleEndian

lemma load_congr (h : ∀ k < width, m' (offset' + k) = m (offset + k)) :
    m'.load offset' width = m.load offset width :=
  congrArg decode (slice_congr h)

lemma load_lt (m : Memory) (offset width : Nat) : m.load offset width < 256 ^ width := by
  have hlt := decode_lt (m.slice offset width)
  rwa [length_slice] at hlt

lemma load_one (m : Memory) (offset : Nat) : m.load offset 1 = (m offset).toNat := by
  simp [load, slice, decode]

lemma slice_ofList_append (l l' : List UInt8) :
    (ofList (l ++ l')).slice l.length l'.length = l' := by
  refine List.ext_getElem (by simp) fun i hi _ => ?_
  have hlt : i < l'.length := by simpa using hi
  simp [slice, ofList, hlt]

lemma slice_ofList (l : List UInt8) : (ofList l).slice 0 l.length = l := slice_ofList_append [] l

lemma take_slice (m : Memory) (offset : Nat) {k : Nat} (h : k ≤ length) :
    (m.slice offset length).take k = m.slice offset k := by
  rw [slice, ← List.map_take, List.take_range, min_eq_left h, slice]

/-! ## Writing -/

lemma copy_outside (h : b < dst ∨ dst + length ≤ b) : m.copy dst from' src length b = m b :=
  if_neg (by omega)

lemma copy_inside (h : dst ≤ b) (h' : b < dst + length) :
    m.copy dst from' src length b = from' (src + (b - dst)) :=
  if_pos ⟨h, h'⟩

lemma store_outside (h : b < offset ∨ offset + width ≤ b) : m.store offset width value b = m b :=
  copy_outside h

lemma slice_copy (m : Memory) (dst : Nat) (source : Memory) (src length : Nat) :
    (m.copy dst source src length).slice dst length = source.slice src length := by
  refine slice_congr fun k hk => ?_
  rw [copy_inside (by omega) (by omega), Nat.add_sub_cancel_left]

lemma slice_copy_outside (h : offset + width ≤ dst ∨ dst + length ≤ offset) :
    (m.copy dst from' src length).slice offset width = m.slice offset width :=
  slice_congr fun _ _ => copy_outside (by omega)

lemma load_copy_outside (h : offset + width ≤ dst ∨ dst + length ≤ offset) :
    (m.copy dst from' src length).load offset width = m.load offset width :=
  congrArg decode (slice_copy_outside h)

lemma slice_store (m : Memory) (offset width value : Nat) :
    (m.store offset width value).slice offset width = encode width value := by
  have hlist := slice_ofList (encode width value)
  rw [length_encode] at hlist
  rw [store, slice_copy, hlist]

lemma load_store (m : Memory) (offset width value : Nat) :
    (m.store offset width value).load offset width = value % 256 ^ width := by
  rw [load, slice_store, decode_encode_mod]

lemma load_store_outside {width' : Nat} (h : offset' + width' ≤ offset ∨ offset + width ≤ offset') :
    (m.store offset width value).load offset' width' = m.load offset' width' :=
  load_copy_outside h

end Memory
