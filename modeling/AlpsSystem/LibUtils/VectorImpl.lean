import AlpsSystem.LibUtils.SharedBuffer

/-!
# The vector

`VectorImpl.cpp`: a vector is a buffer, or none, and a number of items.  A method runs on the heap
and on the vector it is called on.  Arguments are given by value; what an item of a type with a
trivial constructor holds before it is assigned is given by the caller as `fresh`.
-/

namespace LibUtils

variable {α : Type}

/-- What a `Vector<TYPE>` knows of `TYPE`: `mItemSize`, `mFlags` and the traits, and what its
constructor makes. -/
structure Config (α : Type) where
  itemSize : Nat
  itemSize_pos : 0 < itemSize
  trivialCtor : Bool
  trivialDtor : Bool
  trivialCopy : Bool
  trivialMove : Bool
  default : α

/-- `mStorage` and `mCount`. -/
structure VectorImpl where
  storage : Option Nat := none
  count : Nat := 0
  deriving DecidableEq, Repr

/-- A vector on the heap. -/
structure Self (α : Type) extends VectorImpl where
  heap : Heap α

inductive Status
  | badIndex
  | badValue
  | noMemory
  deriving DecidableEq, Repr

/-- A `ssize_t` that is negative for an error. -/
abbrev Result := Except Status Nat

def sizeMax : Nat := 2 ^ 64

def Config.useTrivialMove (c : Config α) : Bool :=
  c.trivialDtor && c.trivialCopy || c.trivialMove

/-- The buffer of a vector that has one. -/
def storageOf (s : Self α) : Except Stop (RefHeap.Cell (Buffer α)) :=
  match s.storage with
  | some b => SharedBuffer.access s.heap b
  | none => .error .undefined

/-- Change the data of the vector's own buffer. -/
def modifyStorage (s : Self α) (f : Buffer α → Except Stop (Buffer α)) : Except Stop (Self α) :=
  match s.storage with
  | some b => do
    let sb ← SharedBuffer.access s.heap b
    let buffer ← f sb.content
    pure { s with heap := s.heap.put b { sb with content := buffer } }
  | none => .error .undefined

/-! ## Items in a buffer -/

def slotsOf (c : Config α) (buffer : Buffer α) : Nat := buffer.size / c.itemSize

/-- Reading outside of the buffer or where no item is. -/
def readItems (c : Config α) (buffer : Buffer α) (start num : Nat) : Except Stop (List α) :=
  if start + num > slotsOf c buffer then .error .undefined
  else
    match buffer.items.read start num with
    | some l => .ok l
    | none => .error .undefined

def writeItems (c : Config α) (buffer : Buffer α) (start : Nat) (l : List α) :
    Except Stop (Buffer α) :=
  if start + l.length > slotsOf c buffer then .error .undefined
  else .ok { buffer with items := buffer.items.write start l }

/-- What `_do_construct` leaves in `num` slots. -/
def constructed (c : Config α) (fresh : Nat → α) (num : Nat) : List α :=
  (List.range num).map fun i => if c.trivialCtor then fresh i else c.default

/-- `_do_destroy` -/
def destroyItems (c : Config α) (buffer : Buffer α) (start num : Nat) : Except Stop (Buffer α) :=
  if c.trivialDtor then .ok buffer
  else do
    let _ ← readItems c buffer start num
    pure { buffer with items := buffer.items.erase start num }

/-- Move items within the buffer, all at once or by the loop of `move_forward_type` or
`move_backward_type`. -/
def moveItems (c : Config α) (loop : Bool → Slots α → Nat → Nat → Nat → Slots α)
    (buffer : Buffer α) (dest from_ num : Nat) : Except Stop (Buffer α) := do
  let l ← readItems c buffer from_ num
  if dest + l.length > slotsOf c buffer then throw .undefined
  else if c.useTrivialMove then
    pure { buffer with items := buffer.items.move dest from_ num }
  -- `new(d) TYPE(*s)` would construct an item from itself
  else if dest = from_ ∧ num ≠ 0 ∧ ¬ c.trivialCopy then throw .undefined
  else pure { buffer with items := loop (!c.trivialDtor) buffer.items dest from_ num }

/-- `_do_move_forward` -/
def moveForward (c : Config α) : Buffer α → Nat → Nat → Nat → Except Stop (Buffer α) :=
  moveItems c Slots.moveUp

/-- `_do_move_backward` -/
def moveBackward (c : Config α) : Buffer α → Nat → Nat → Nat → Except Stop (Buffer α) :=
  moveItems c Slots.moveDown

/-- `_do_copy` of items of a vector to another buffer. -/
def copyItems (c : Config α) (s : Self α) (array dest start num : Nat) : Except Stop (Self α) :=
  match s.storage with
  | some b => do
    let sb ← SharedBuffer.access s.heap b
    let l ← readItems c sb.content start num
    let new ← SharedBuffer.access s.heap array
    let buffer ← writeItems c new.content dest l
    pure { s with heap := s.heap.put array { new with content := buffer } }
  | none => if num = 0 then .ok s else .error .undefined

/-- The same where the source looks first whether there is anything to copy. -/
def copySome (c : Config α) (s : Self α) (array dest start num : Nat) : Except Stop (Self α) :=
  if num ≠ 0 then copyItems c s array dest start num else .ok s

/-! ## Storage -/

def capacity (c : Config α) (s : Self α) : Except Stop Nat :=
  match s.storage with
  | some b => do
    let sb ← SharedBuffer.access s.heap b
    pure (slotsOf c sb.content)
  | none => .ok 0

def releaseStorage (c : Config α) (s : Self α) : Except Stop (Self α) :=
  match s.storage with
  | some b => do
    let (heap, refs) ← SharedBuffer.release s.heap b true
    if refs = 1 then
      let s ← modifyStorage { s with heap } fun buffer => destroyItems c buffer 0 s.count
      pure { s with heap := s.heap.free b }
    else pure { s with heap }
  | none => .ok s

/-- What `editArrayImpl` and `setCapacity` do to get a buffer of their own. -/
def copyStorage (c : Config α) (s : Self α) (bytes : Nat) : Except Stop (Self α) := do
  let (heap, array) ← SharedBuffer.alloc s.heap bytes
  let s ← copyItems c { s with heap } array 0 0 s.count
  let s ← releaseStorage c s
  pure { s with storage := some array }

def editArrayImpl (c : Config α) (s : Self α) : Except Stop (Self α) :=
  match s.storage with
  | some b => do
    let sb ← SharedBuffer.access s.heap b
    if SharedBuffer.onlyOwner sb then pure s else copyStorage c s sb.content.size
  | none => .ok s

/-- The branch of `_grow` and of `_shrink` that moves to a new buffer: `keep` items stay where they
are, and `num` items, if any, go from `from_` to `dest`. -/
def relocate (c : Config α) (s : Self α) (bytes keep dest from_ num : Nat) :
    Except Stop (Self α) := do
  let (heap, array) ← SharedBuffer.alloc s.heap bytes
  let s ← copySome c { s with heap } array 0 0 keep
  let s ← copySome c s array dest from_ num
  let s ← releaseStorage c s
  pure { s with storage := some array }

/-- The branch that resizes the buffer, for types whose items are just bytes. -/
def resizeStorage (c : Config α) (s : Self α) (b bytes : Nat) : Except Stop (Self α) := do
  let (heap, sb) ← SharedBuffer.editResize c.itemSize s.heap b bytes
  pure { s with heap, storage := some sb }

def kMinVectorCapacity : Nat := 4

/-- `new_alloc_size` of `_grow`. -/
def grownSize (c : Config α) (newSize : Nat) : Except Stop Nat :=
  if newSize + newSize / 2 ≥ sizeMax ∨ newSize + newSize / 2 + 1 ≥ sizeMax then .error .noMemory
  else
    let newCapacity := max kMinVectorCapacity (newSize + newSize / 2 + 1)
    if newCapacity * c.itemSize ≥ sizeMax then .error .noMemory
    else .ok (newCapacity * c.itemSize)

/-- `itemLocation`, as an index. -/
def itemLocation (c : Config α) (s : Self α) (index : Nat) : Except Stop (Option Nat) := do
  let cap ← capacity c s
  pure (if index < cap then some index else none)

/-- The branch of `_grow` that needs more storage. -/
def enlarge (c : Config α) (s : Self α) (where_ amount : Nat) : Except Stop (Self α) := do
  let bytes ← grownSize c (s.count + amount)
  match s.storage with
  | some b =>
    if s.count = where_ ∧ c.trivialCopy ∧ c.trivialDtor then resizeStorage c s b bytes
    else relocate c s bytes where_ (where_ + amount) where_ (s.count - where_)
  | none => relocate c s bytes where_ (where_ + amount) where_ (s.count - where_)

/-- The branch that finds its storage large enough. -/
def openGap (c : Config α) (s : Self α) (where_ amount : Nat) : Except Stop (Self α) := do
  let s ← editArrayImpl c s
  if where_ ≠ s.count then
    modifyStorage s fun buffer => moveForward c buffer (where_ + amount) where_ (s.count - where_)
  else pure s

def makeRoom (c : Config α) (s : Self α) (where_ amount cap : Nat) : Except Stop (Self α) :=
  if cap < s.count + amount then enlarge c s where_ amount else openGap c s where_ amount

/-- `_grow`: the place of the free slots is `NULL` if there are no slots from there on. -/
def grow (c : Config α) (s : Self α) (where_ amount : Nat) : Except Stop (Self α × Option Nat) :=
  let newSize := s.count + amount
  if newSize ≥ sizeMax then .error .noMemory
  else do
    let cap ← capacity c s
    let s ← makeRoom c s where_ amount cap
    let freeSpace ← itemLocation c { s with count := newSize } where_
    pure ({ s with count := newSize }, freeSpace)

/-- The branch of `_shrink` that needs less storage; the arithmetic of `size_t` wraps. -/
def reduce (c : Config α) (s : Self α) (b where_ amount : Nat) : Except Stop (Self α) :=
  let newSize := s.count - amount
  let bytes := max kMinVectorCapacity (newSize * 2) * c.itemSize % sizeMax
  if where_ = newSize ∧ c.trivialCopy ∧ c.trivialDtor then resizeStorage c s b bytes
  else
    relocate c s bytes where_ where_ ((where_ + amount) % sizeMax)
      ((sizeMax + newSize - where_) % sizeMax)

/-- The branch that keeps its storage. -/
def closeGap (c : Config α) (s : Self α) (where_ amount : Nat) : Except Stop (Self α) := do
  let newSize := s.count - amount
  let s ← editArrayImpl c s
  let s ← modifyStorage s fun buffer => destroyItems c buffer where_ amount
  if where_ ≠ newSize then
    modifyStorage s fun buffer =>
      moveBackward c buffer where_ ((where_ + amount) % sizeMax)
        ((sizeMax + newSize - where_) % sizeMax)
  else pure s

def takeOut (c : Config α) (s : Self α) (b where_ amount cap : Nat) : Except Stop (Self α) :=
  if s.count - amount < cap / 2 then reduce c s b where_ amount else closeGap c s where_ amount

def shrink (c : Config α) (s : Self α) (where_ amount : Nat) : Except Stop (Self α) :=
  match s.storage with
  | none => .ok s
  | some b =>
    if amount > s.count then .error .fatal
    else do
      let newSize := s.count - amount
      let cap ← capacity c s
      let s ← takeOut c s b where_ amount cap
      pure { s with count := newSize }

/-! ## Methods -/

/-- What the insertions have in common: slots are made by `_grow`, and then filled with the items
of an array. -/
def insertItems (c : Config α) (s : Self α) (array : Heap α → Except Stop (List α))
    (index num : Nat) : Except Stop (Self α × Result) :=
  if index > s.count then .ok (s, .error .badIndex)
  else do
    let (s, where_) ← grow c s index num
    match where_ with
    | some location =>
      let l ← array s.heap
      let s ← modifyStorage s fun buffer => writeItems c buffer location l
      pure (s, .ok index)
    | none => pure (s, .error .noMemory)

def insertArrayAt (c : Config α) (s : Self α) (array : List α) (index : Nat) :
    Except Stop (Self α × Result) :=
  insertItems c s (fun _ => .ok array) index array.length

/-- `arrayImpl` of another vector, as it is read when the slots are made. -/
def arrayOf (c : Config α) (vector : VectorImpl) (heap : Heap α) : Except Stop (List α) :=
  match vector.storage with
  | some b => do
    let sb ← SharedBuffer.access heap b
    readItems c sb.content 0 vector.count
  | none => if vector.count = 0 then .ok [] else .error .undefined

def insertVectorAt (c : Config α) (s : Self α) (vector : VectorImpl) (index : Nat) :
    Except Stop (Self α × Result) :=
  insertItems c s (arrayOf c vector) index vector.count

/-- `insertAt`, with an item or with `NULL`. -/
def insertAt (c : Config α) (s : Self α) (item : Option α) (fresh : Nat → α)
    (index numItems : Nat) : Except Stop (Self α × Result) :=
  match item with
  | some item => insertItems c s (fun _ => .ok (List.replicate numItems item)) index numItems
  | none => insertItems c s (fun _ => .ok (constructed c fresh numItems)) index numItems

/-- `editItemLocation`, as an index. -/
def editItemLocation (c : Config α) (s : Self α) (index : Nat) :
    Except Stop (Self α × Option Nat) := do
  let cap ← capacity c s
  if index < cap then
    let s ← editArrayImpl c s
    pure (s, s.storage.map fun _ => index)
  else pure (s, none)

/-- `_do_destroy` and `_do_copy` of one item. -/
def replaceItem (c : Config α) (buffer : Buffer α) (index : Nat) (item : α) :
    Except Stop (Buffer α) := do
  let buffer ← destroyItems c buffer index 1
  writeItems c buffer index [item]

def replaceAt (c : Config α) (s : Self α) (prototype : Option α) (fresh : Nat → α) (index : Nat) :
    Except Stop (Self α × Result) :=
  if index ≥ s.count then .ok (s, .error .badIndex)
  else do
    let (s, location) ← editItemLocation c s index
    match location with
    | some location =>
      let item := prototype.getD (if c.trivialCtor then fresh 0 else c.default)
      let s ← modifyStorage s fun buffer => replaceItem c buffer location item
      pure (s, .ok index)
    | none => pure (s, .error .noMemory)

def removeItemsAt (c : Config α) (s : Self α) (index count : Nat) :
    Except Stop (Self α × Result) :=
  if (index + count) % sizeMax > s.count then .ok (s, .error .badValue)
  else do
    let s ← shrink c s index count
    pure (s, .ok index)

/-- `push` and `add` -/
def push (c : Config α) (s : Self α) (item : Option α) (fresh : Nat → α) :
    Except Stop (Self α × Result) :=
  insertAt c s item fresh s.count 1

def pop (c : Config α) (s : Self α) : Except Stop (Self α) :=
  if s.count ≠ 0 then do
    let (s, _) ← removeItemsAt c s (s.count - 1) 1
    pure s
  else .ok s

def clear (c : Config α) (s : Self α) : Except Stop (Self α) := shrink c s 0 s.count

def finishVector (c : Config α) (s : Self α) : Except Stop (Self α) := do
  let s ← releaseStorage c s
  pure { s with storage := none, count := 0 }

def setCapacity (c : Config α) (s : Self α) (newCapacity : Nat) :
    Except Stop (Self α × Result) := do
  if newCapacity ≤ s.count then
    let cap ← capacity c s
    pure (s, .ok cap)
  else if newCapacity * c.itemSize ≥ sizeMax then throw .noMemory
  else
    let s ← copyStorage c s (newCapacity * c.itemSize)
    pure (s, .ok newCapacity)

def resize (c : Config α) (s : Self α) (fresh : Nat → α) (size : Nat) :
    Except Stop (Self α × Result) := do
  let (s, result) ←
    if size > s.count then insertAt c s none fresh s.count (size - s.count)
    else if size < s.count then removeItemsAt c s size (s.count - size)
    else pure (s, .ok 0)
  pure (s, result.map fun _ => size)

/-! ## Sorting -/

def readItem (c : Config α) (buffer : Buffer α) (index : Nat) : Except Stop α :=
  if index ≥ slotsOf c buffer then .error .undefined
  else
    match buffer.items index with
    | some item => .ok item
    | none => .error .undefined

/-- The inner loop of `sort`: `curr` is at `j` and `next` behind it. -/
def sortShift (c : Config α) (cmp : α → α → Int) (temp : α) :
    Nat → Buffer α → Except Stop (Buffer α)
  | 0, buffer => do
    let item ← readItem c buffer 0
    let buffer ← replaceItem c buffer 1 item
    replaceItem c buffer 0 temp
  | j + 1, buffer => do
    let item ← readItem c buffer (j + 1)
    let buffer ← replaceItem c buffer (j + 2) item
    let curr ← readItem c buffer j
    if cmp curr temp > 0 then sortShift c cmp temp j buffer
    else replaceItem c buffer (j + 1) temp

/-- The array is edited at the first change, when `temp` is made. -/
def editOnce (c : Config α) (s : Self α) (edited : Bool) : Except Stop (Self α) :=
  if edited then .ok s else editArrayImpl c s

/-- `n` rounds of the outer loop from `i + 1` on. -/
def sortLoop (c : Config α) (cmp : α → α → Int) :
    Nat → Nat → Bool → Self α → Except Stop (Self α)
  | 0, _, _, s => .ok s
  | n + 1, i, edited, s => do
    let sb ← storageOf s
    let curr ← readItem c sb.content i
    let item ← readItem c sb.content (i + 1)
    if cmp curr item > 0 then
      let s ← editOnce c s edited
      let s ← modifyStorage s fun buffer => sortShift c cmp item i buffer
      sortLoop c cmp n (i + 1) true s
    else sortLoop c cmp n (i + 1) edited s

def sort (c : Config α) (s : Self α) (cmp : α → α → Int) : Except Stop (Self α) :=
  if s.count > 1 then sortLoop c cmp (s.count - 1) 0 false s else .ok s

/-! ## Copies -/

/-- `VectorImpl(const VectorImpl&)` -/
def copyConstruct (heap : Heap α) (rhs : VectorImpl) : Except Stop (Self α) :=
  match rhs.storage with
  | some b => do
    let heap ← SharedBuffer.acquire heap b
    pure { rhs with heap }
  | none => .ok { rhs with heap }

/-- `operator =`, for two different vectors. -/
def assign (c : Config α) (s : Self α) (rhs : VectorImpl) : Except Stop (Self α) := do
  let s ← releaseStorage c s
  if rhs.count ≠ 0 then
    match rhs.storage with
    | some b =>
      let heap ← SharedBuffer.acquire s.heap b
      pure { rhs with heap }
    | none => throw .undefined
  else pure { s with storage := none, count := 0 }

end LibUtils
