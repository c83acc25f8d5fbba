import AlpsSystem.Lib.Memory

/-!
# Memory from a file

`MemoryOffline` reads the memory of a process from a file: a start address and the bytes from there
on.  It is a `MemoryFileAtOffset`, which maps whole pages and lets `data_` point behind the part
`offset_` of the first page that comes before the offset.  `MemoryOffline::Read` adds that part once
more, so it reads the right bytes at page boundaries only.
-/

namespace Offline

/-- A file, with a length that fits `off_t`. -/
structure File where
  bytes : Memory
  length : Nat
  length_lt : length < 2 ^ 63

/-- `base` is the position of `data_` in the file. -/
structure MemoryFileAtOffset where
  base : Nat
  offset : Nat
  size : Nat

variable (pageSize : Nat) (file : File)

/-- `MemoryFileAtOffset::Init`, when the file can be opened and mapped. -/
def MemoryFileAtOffset.init (offset size : Nat) : Option MemoryFileAtOffset :=
  if offset ≥ file.length then none
  else
    let inPage := offset % pageSize
    let alignedOffset := offset - inPage
    if alignedOffset > file.length ∨ offset > file.length then none
    else
      let size_ := file.length - alignedOffset
      let maxSize := size + inPage
      let size_ := if maxSize < 2 ^ 64 ∧ maxSize < size_ then maxSize else size_
      some { base := alignedOffset + inPage, offset := inPage, size := size_ - inPage }

def MemoryFileAtOffset.read (m : MemoryFileAtOffset) (addr size : Nat) : Option (List UInt8) :=
  if addr + size ≥ 2 ^ 64 ∨ addr + size > m.size then none
  else some (file.bytes.slice (m.base + addr) size)

structure MemoryOffline extends MemoryFileAtOffset where
  start : Nat

/-- `MemoryOffline::Init`, with the default for the size of the mapping. -/
def MemoryOffline.init (offset : Nat) : Option MemoryOffline := do
  let m ← MemoryFileAtOffset.init pageSize file offset (2 ^ 64 - 1)
  let start ← m.read file 0 8
  pure { m with start := LittleEndian.decode start, size := m.size - 8 }

def MemoryOffline.read (m : MemoryOffline) (addr size : Nat) : Option (List UInt8) :=
  if addr + size ≥ 2 ^ 64 then none
  else if m.start + m.offset ≥ 2 ^ 64 ∨ m.start + m.offset + m.size ≥ 2 ^ 64 then none
  else if addr < m.start ∨ addr + size > m.start + m.offset + m.size then none
  else some (file.bytes.slice (m.base + (addr + m.offset - m.start + 8)) size)

variable {pageSize file} {offset n : Nat} {m : MemoryOffline}

open MemoryFileAtOffset

lemma init_eq (hinit : MemoryOffline.init pageSize file offset = some m)
    (hlength : file.length = offset + 8 + n) :
    m = ⟨⟨offset, offset % pageSize, n⟩, file.bytes.load offset 8⟩ := by
  have hlt := file.length_lt
  have hle : offset % pageSize ≤ offset := Nat.mod_le _ _
  have hmap : init pageSize file offset (2 ^ 64 - 1) =
      some ⟨offset, offset % pageSize, 8 + n⟩ := by
    rw [MemoryFileAtOffset.init, if_neg (by omega)]
    dsimp only
    rw [if_neg (by omega), if_neg (by omega)]
    congr 2 <;> omega
  have hstart : read file ⟨offset, offset % pageSize, 8 + n⟩ 0 8 =
      some (file.bytes.slice offset 8) := if_neg (show ¬ (0 + 8 ≥ 2 ^ 64 ∨ 0 + 8 > 8 + n) by omega)
  rw [MemoryOffline.init, hmap, Option.bind_eq_bind, Option.bind_some, hstart] at hinit
  cases hinit
  simp [Memory.load]

/-- What `Read` should return: the bytes of the file, for addresses inside it only. -/
def fileBytes (file : File) (offset n a k : Nat) : Option (List UInt8) :=
  let start := file.bytes.load offset 8
  if start ≤ a ∧ a + k ≤ start + n then some (file.bytes.slice (offset + 8 + (a - start)) k)
  else none

/-- **The bytes of the file are read**, for every file with a start address and `n` bytes, exactly
if these stand at a page boundary and their addresses fit 64 bits. -/
theorem offline_read_iff (hinit : MemoryOffline.init pageSize file offset = some m)
    (hlength : file.length = offset + 8 + n) :
    (∀ a < 2 ^ 64, ∀ k < 2 ^ 64, m.read file a k = fileBytes file offset n a k) ↔
      offset % pageSize = 0 ∧ file.bytes.load offset 8 + n < 2 ^ 64 := by
  have hstart : file.bytes.load offset 8 < 2 ^ 64 := Memory.load_lt _ _ 8
  have hlt := file.length_lt
  simp only [init_eq hinit hlength, MemoryOffline.read, fileBytes]
  generalize file.bytes.load offset 8 = s at *
  generalize offset % pageSize = inPage
  constructor
  · -- the reads of nothing at the first byte and of one byte behind the last one tell
    intro h
    have hfirst := h s hstart 0 (by decide)
    rw [if_neg (by omega), if_neg (show ¬ (s < s ∨ s + 0 > s + inPage + n) by omega),
      if_pos (show s ≤ s ∧ s + 0 ≤ s + n by omega)] at hfirst
    split at hfirst
    case isTrue => cases hfirst
    have hbehind := h (s + n) (by omega) 1 (by decide)
    rw [if_neg (show ¬ (s ≤ s + n ∧ s + n + 1 ≤ s + n) by omega)] at hbehind
    refine ⟨by_contra fun hpos => ?_, by omega⟩
    rw [if_neg (by omega), if_neg (by omega), if_neg (by omega)] at hbehind
    cases hbehind
  · rintro ⟨rfl, hfits⟩ a - k -
    have hindex (hle : s ≤ a) : offset + (a + 0 - s + 8) = offset + 8 + (a - s) := by omega
    split
    case isTrue => rw [if_neg (by omega)]
    case isFalse =>
      rw [if_neg (by omega)]
      split
      case isTrue => rw [if_neg (by omega)]
      case isFalse => rw [if_pos (by omega), hindex (by omega)]

/-- A start address of 16 and one byte, behind `before` other ones. -/
def sampleFile (before : Fin 2) : File :=
  ⟨.ofList (List.replicate before 0 ++ [16, 0, 0, 0, 0, 0, 0, 0, 7]), before + 9, by omega⟩

theorem offline_read_iff_sampleFile :
    ∃ m, MemoryOffline.init 4096 (sampleFile 0) 0 = some m ∧
      m.read (sampleFile 0) 16 1 = some [7] := by
  refine ⟨⟨⟨0, 0, 1⟩, 16⟩, rfl, ?_⟩
  rw [(@offline_read_iff 4096 (sampleFile 0) 0 1 ⟨⟨0, 0, 1⟩, 16⟩ rfl rfl).mpr (by decide) 16
    (by decide) 1 (by decide)]
  decide

theorem offline_misread :
    (MemoryOffline.init 4096 (sampleFile 1) 1).bind (·.read (sampleFile 1) 16 1) ≠ some [7] := by
  decide

end Offline
