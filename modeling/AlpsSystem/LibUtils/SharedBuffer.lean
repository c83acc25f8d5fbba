import AlpsSystem.Lib.Ensures
import AlpsSystem.Lib.RefHeap
import AlpsSystem.Lib.Slots

/-!
# Shared buffers

The buffers of `SharedBuffer.cpp`, on a heap.  A buffer is named by a number in place of its
address; its data are seen as the items of some size that `VectorImpl` keeps in it.  `malloc` and
`realloc` give what they are asked for, up to the size that `alloc` itself refuses.

`Counts` says that every buffer is there exactly while it has users and that its count is their
number; `alloc_spec`, `acquire_spec`, `release_spec` and `editResize_spec` say how the
functions keep it and which data they leave alone.
-/

namespace LibUtils

/-- Why a call does not return: memory for something of that size cannot be had, another
`LOG_ALWAYS_FATAL_IF`, or an access outside of a buffer or to an item that is not there. -/
inductive Stop
  | noMemory
  | fatal
  | undefined
  deriving DecidableEq, Repr

/-- `mSize`, and the items that stand in the data. -/
structure Buffer (α : Type) where
  size : Nat
  items : Slots α

abbrev Heap (α : Type) := RefHeap (Buffer α)

open RefHeap RefHeap.Keeps

namespace SharedBuffer

variable {α : Type} {heap : Heap α} {users : Nat → Nat} {b : Nat} {sb : RefHeap.Cell (Buffer α)}

/-- Of the header; `SIZE_MAX` is `2 ^ 64 - 1`. -/
def sizeofSharedBuffer : Nat := 24

def sizeLimit : Nat := 2 ^ 64 - 1 - sizeofSharedBuffer

/-- `mRefs` is an `int32_t` whose arithmetic wraps. -/
def wrap (refs : Int) : Int := refs.bmod (2 ^ 32)

/-- A buffer that is still there. -/
def access (heap : Heap α) (b : Nat) : Except Stop (RefHeap.Cell (Buffer α)) :=
  match heap.cells b with
  | some sb => .ok sb
  | none => .error .undefined

def alloc (heap : Heap α) (size : Nat) : Except Stop (Heap α × Nat) :=
  if size ≥ sizeLimit then .error .noMemory
  else .ok (heap.alloc { size, items := fun _ => none })

def acquire (heap : Heap α) (b : Nat) : Except Stop (Heap α) := do
  let sb ← access heap b
  pure (heap.put b { sb with refs := wrap (sb.refs + 1) })

def onlyOwner (sb : RefHeap.Cell (Buffer α)) : Bool := sb.refs = 1

/-- Also returns the count before; the caller keeps the storage if it wants to. -/
def release (heap : Heap α) (b : Nat) (keepStorage : Bool) : Except Stop (Heap α × Int) := do
  let sb ← access heap b
  if onlyOwner sb then
    let heap := heap.put b { sb with refs := 0 }
    pure (if keepStorage then heap else heap.free b, 1)
  else
    -- no other thread runs in between, so the count that is read again is not 1
    pure (heap.put b { sb with refs := wrap (sb.refs - 1) }, sb.refs)

/-- What the first `bytes` bytes hold when an item has `itemSize`. -/
def prefixItems (itemSize bytes : Nat) (items : Slots α) : Slots α := fun i =>
  if (i + 1) * itemSize ≤ bytes then items i else none

/-- As much as there is room for. -/
def Buffer.resized (itemSize newSize : Nat) (buffer : Buffer α) : Buffer α where
  size := newSize
  items := prefixItems itemSize (min newSize buffer.size) buffer.items

/-- The only owner has its buffer resized by `realloc`, any other gets a copy and releases the
old one. -/
def editResize (itemSize : Nat) (heap : Heap α) (b newSize : Nat) : Except Stop (Heap α × Nat) := do
  let sb ← access heap b
  let resized := Buffer.resized itemSize newSize sb.content
  if onlyOwner sb then
    if sb.content.size = newSize then pure (heap, b)
    else if newSize ≥ sizeLimit then throw .noMemory
    else pure (heap.put b { sb with content := resized }, b)
  else
    let (heap, copy) ← alloc heap newSize
    let new ← access heap copy
    let heap := heap.put copy { new with content := resized }
    let (heap, _) ← release heap b false
    pure (heap, copy)

/-! ## Counts -/

/-- One user, if there is a buffer. -/
def uses (storage : Option Nat) (b : Nat) : Nat := if storage = some b then 1 else 0

/-- Every buffer counts its users, and the count has not wrapped. -/
structure Counts (heap : Heap α) (users : Nat → Nat) : Prop where
  counted : heap.Counted users
  small : ∀ b, users b < 2 ^ 31

/-- Memory may be refused; nothing else may go wrong. -/
abbrev Returns {β : Type} (x : Except Stop β) (Q : β → Prop) : Prop :=
  Ensures (· = Stop.noMemory) x Q

lemma wrap_eq {refs : Int} (hlow : -2 ^ 31 ≤ refs) (hhigh : refs < 2 ^ 31) : wrap refs = refs :=
  Int.bmod_eq_of_le (by omega) (by omega)

@[simp] lemma uses_self (b : Nat) : uses (some b) b = 1 := if_pos rfl

lemma uses_of_ne {x : Nat} (hx : x ≠ b) : uses (some b) x = 0 := if_neg (by simpa using hx.symm)

lemma access_eq (h : heap.cells b = some sb) : access heap b = .ok sb := by
  rw [access, h]

section

variable (h : Counts heap users)

include h

lemma Counts.access (hb : 0 < users b) :
    ∃ buffer, heap.cells b = some ⟨users b, buffer⟩ ∧ access heap b = .ok ⟨users b, buffer⟩ := by
  obtain ⟨buffer, hcell⟩ := h.counted.exists_cell hb
  exact ⟨buffer, hcell, access_eq hcell⟩

lemma alloc_spec (size : Nat) :
    Returns (alloc heap size) fun r =>
      Counts r.1 (fun x => users x + uses (some r.2) x) ∧ heap.Keeps users r.1 ∧ users r.2 = 0 ∧
        r.1.cells r.2 = some ⟨1, { size, items := fun _ => none }⟩ ∧ size < sizeLimit := by
  refine ensures_ite (fun _ => rfl) fun hsize => ?_
  have hnext := h.counted.next_unused
  refine ⟨⟨?_, fun x => ?_⟩, RefHeap.Keeps.alloc hnext, hnext, if_pos rfl, lt_of_not_ge hsize⟩
  · have hcounted := h.counted.alloc ({ size, items := fun _ => none } : Buffer α)
    simpa [uses, RefHeap.alloc] using hcounted
  · show users x + uses (some heap.next) x < 2 ^ 31
    by_cases hx : x = heap.next
    · rw [hx, hnext, uses_self]
      decide
    · rw [uses_of_ne hx]
      exact h.small x

lemma acquire_spec (hb : 0 < users b) (hsmall : users b + 1 < 2 ^ 31) :
    ∃ heap', acquire heap b = .ok heap' ∧ Counts heap' (fun x => users x + uses (some b) x) ∧
      ∀ x, heap'.content x = heap.content x := by
  obtain ⟨buffer, hcell, haccess⟩ := h.access hb
  refine ⟨_, by rw [acquire, haccess]; rfl, ⟨h.counted.put hb ?_ (by omega) fun x hx => ?_,
    fun x => ?_⟩, fun x => ?_⟩
  · rw [wrap_eq (by dsimp only; omega) (by dsimp only; omega), uses_self]
    rfl
  · rw [uses_of_ne hx, add_zero]
  · by_cases hx : x = b
    · rw [hx, uses_self]
      exact hsmall
    · rw [uses_of_ne hx]
      exact h.small x
  · by_cases hx : x = b
    · rw [hx, content_put_self hcell, content, hcell]
      rfl
    · exact content_put_of_ne hx

/-- A write to the data changes no count. -/
lemma Counts.put_content (hcell : heap.cells b = some sb) (buffer : Buffer α) :
    Counts (heap.put b { sb with content := buffer }) users := by
  obtain ⟨hrefs, hpos⟩ := h.counted.users_of_cell hcell
  exact ⟨h.counted.put hpos hrefs hpos fun _ _ => rfl, h.small⟩

end

variable (h : Counts heap fun x => users x + uses (some b) x) {itemSize : Nat} {l : List α}

include h

/-- The last user of a buffer releases it. -/
lemma release_last (hlast : users b = 0) (keepStorage : Bool) :
    ∃ buffer, heap.cells b = some ⟨1, buffer⟩ ∧ release heap b keepStorage =
      .ok (if keepStorage then heap.put b ⟨0, buffer⟩ else (heap.put b ⟨0, buffer⟩).free b, 1) := by
  obtain ⟨buffer, hcell, haccess⟩ := h.access (b := b) (by simp)
  rw [hlast, uses_self] at hcell haccess
  refine ⟨buffer, hcell, ?_⟩
  rw [release, haccess]
  rfl

lemma free_spec (hlast : users b = 0) :
    Counts (heap.free b) users ∧ heap.Keeps users (heap.free b) := by
  refine ⟨⟨h.counted.free hlast fun x hx => ?_, fun x => ?_⟩, free hlast⟩
  · rw [uses_of_ne hx, add_zero]
  · have hsmall := h.small x
    omega

/-- A user that is not the last one releases a buffer. -/
lemma release_shared (hb : 0 < users b) (keepStorage : Bool) :
    ∃ heap', release heap b keepStorage = .ok (heap', users b + 1) ∧ Counts heap' users ∧
      heap.Keeps users heap' := by
  obtain ⟨buffer, hcell, haccess⟩ := h.access (b := b) (by simp)
  rw [uses_self] at hcell haccess
  have hsmall := h.small b
  have hrelease : release heap b keepStorage =
      .ok (heap.put b ⟨wrap (((users b + 1 : Nat) : Int) - 1), buffer⟩, users b + 1) := by
    rw [release, haccess]
    exact if_neg (by simp [onlyOwner]; omega)
  refine ⟨_, hrelease, ⟨h.counted.put (by simp) ?_ hb fun x hx => ?_, fun x => ?_⟩, put fun _ => ?_⟩
  · show wrap (((users b + 1 : Nat) : Int) - 1) = users b
    rw [wrap_eq (by omega) (by omega)]
    omega
  · rw [uses_of_ne hx, add_zero]
  · have hx := h.small x
    omega
  · rw [content, hcell]
    rfl

omit h in
theorem Holds.prefixItems {bytes : Nat} {items : Slots α}
    (h : items.Holds 0 l) (hbytes : l.length * itemSize ≤ bytes) :
    Slots.Holds (prefixItems itemSize bytes items) 0 l := by
  refine h.congr fun i _ hi => if_pos ?_
  have hle : i + 1 ≤ l.length := by omega
  exact le_trans (Nat.mul_le_mul_right itemSize hle) hbytes

open SharedBuffer.Buffer

/-- The caller alone owns the resized buffer, and it holds what has room in it. -/
lemma editResize_spec {buffer : Buffer α} (hcontent : heap.content b = some buffer)
    (hsize : buffer.size < sizeLimit) (hholds : buffer.items.Holds 0 l)
    (hroom : l.length * itemSize ≤ buffer.size) (newSize : Nat)
    (hnew : l.length * itemSize ≤ newSize) :
    Returns (editResize itemSize heap b newSize) fun r =>
      Counts r.1 (fun x => users x + uses (some r.2) x) ∧ heap.Keeps users r.1 ∧ users r.2 = 0 ∧
        ∃ resized, r.1.content r.2 = some resized ∧ resized.size = newSize ∧
          newSize < sizeLimit ∧ resized.items.Holds 0 l := by
  obtain ⟨buffer', hcell, haccess⟩ := h.access (b := b) (by simp)
  obtain rfl : buffer' = buffer := by
    rw [content, hcell] at hcontent
    exact Option.some.inj hcontent
  have hresized : (resized itemSize newSize buffer').items.Holds 0 l :=
    Holds.prefixItems hholds (Nat.le_min.mpr ⟨hnew, hroom⟩)
  rw [editResize, haccess]
  by_cases hlast : users b = 0
  · -- only owner
    refine ensures_ite (fun _ => ?_) fun howner =>
      absurd hlast (by simp [onlyOwner] at howner; omega)
    refine ensures_ite (fun hsame => ?_) fun _ => ensures_ite (fun _ => rfl) fun hlimit => ?_
    · exact ⟨h, refl, hlast, buffer', hcontent, hsame, hsame ▸ hsize, hholds⟩
    · exact ⟨h.put_content hcell _, put fun hused => by omega, hlast,
        resized itemSize newSize buffer', content_put_self hcell, rfl,
        lt_of_not_ge hlimit, hresized⟩
  · -- the data are copied to a new buffer, which a second user then holds
    refine ensures_ite (fun howner => absurd howner (by simp [onlyOwner]; omega)) fun _ => ?_
    refine (alloc_spec h newSize).bind ?_
    rintro ⟨heap1, copy⟩ ⟨hcounts, hkeeps, hcopy, hcopyCell, hlimit⟩
    dsimp only at hcounts hkeeps hcopy hcopyCell ⊢
    rw [access_eq hcopyCell]
    have hswap : (fun x => users x + uses (some b) x + uses (some copy) x) =
        fun x => users x + uses (some copy) x + uses (some b) x := by
      funext x
      omega
    rw [hswap] at hcounts
    obtain ⟨heap2, hrelease, hcounts2, hkeeps2⟩ :=
      release_shared (hcounts.put_content hcopyCell (resized itemSize newSize buffer'))
        (by omega) false
    have hunused : users copy = 0 := by omega
    show Returns ((release _ b false) >>= _) _
    rw [hrelease]
    refine ⟨hcounts2, ?_, hunused, resized itemSize newSize buffer', ?_, rfl, hlimit,
      hresized⟩
    · exact (hkeeps.mono fun x => by omega).trans <|
        (put fun hused => by omega).trans (hkeeps2.mono fun x => by omega)
    · rw [hkeeps2 copy (by simp), content_put_self hcopyCell]

end SharedBuffer

end LibUtils
