import AlpsSystem.Lib.LittleEndian

/-!
# Importing a sparse image

`sparse_file_import` without checksums, over the bytes of the file. Sizes are unsigned 32-bit
numbers and `process_chunk` returns a block count as an `int`; a seek never fails.

* `WellFormed` — header and chunks are there one after the other, and their sizes add up.
* `import_wellFormed_iff` — what the import accepts is well formed exactly if it is `Regular`: its
  chunks are there, of known types and no smaller than their headers, and their blocks do not exceed
  32 bits.
-/

namespace Sparse

open LittleEndian (decode encode)

open List

/-- `offset` and `width` of a field in bytes. -/
def field (raw : List UInt8) (offset width : Nat) : Nat := decode ((raw.drop offset).take width)

structure SparseHeader where
  magic : Nat
  majorVersion : Nat
  fileHdrSz : Nat
  chunkHdrSz : Nat
  blkSz : Nat
  totalBlks : Nat
  totalChunks : Nat

def SparseHeader.ofBytes (raw : List UInt8) : SparseHeader where
  magic := field raw 0 4
  majorVersion := field raw 4 2
  fileHdrSz := field raw 8 2
  chunkHdrSz := field raw 10 2
  blkSz := field raw 12 4
  totalBlks := field raw 16 4
  totalChunks := field raw 20 4

structure ChunkHeader where
  chunkType : Nat
  chunkSz : Nat
  totalSz : Nat

def ChunkHeader.ofBytes (raw : List UInt8) : ChunkHeader where
  chunkType := field raw 0 2
  chunkSz := field raw 4 4
  totalSz := field raw 8 4

def headerMagic : Nat := 0xed26ff3a
def headerMajorVer : Nat := 1
def sparseHeaderLen : Nat := 28
def chunkHeaderLen : Nat := 12
def typeRaw : Nat := 0xCAC1
def typeFill : Nat := 0xCAC2
def typeDontCare : Nat := 0xCAC3
def typeCrc32 : Nat := 0xCAC4

/-- Why nothing is returned; `negative` is a block count that came back as a negative `int`. -/
inductive Error where
  | einval | enomem | negative | divideByZero
deriving DecidableEq

inductive Content where
  | fill (val : Nat)
  | fd (offset : Nat)
deriving DecidableEq

structure BackedBlock where
  content : Content
  len : Nat
  block : Nat
deriving DecidableEq

/-- The blocks in the order in which they were added. -/
structure SparseFile where
  blockSize : Nat
  len : Nat
  added : List BackedBlock := []
deriving DecidableEq

def readAll (bytes : List UInt8) (pos len : Nat) : Except Error (List UInt8) :=
  if pos + len ≤ bytes.length then .ok ((bytes.drop pos).take len) else .error .einval

section Reader

-- `alloc` says whether there is memory for a block
variable (alloc : BackedBlock → Bool) (bytes : List UInt8)

def SparseFile.add (s : SparseFile) (bb : BackedBlock) : Except Error SparseFile :=
  if alloc bb then .ok { s with added := s.added ++ [bb] } else .error .enomem

def processRawChunk (s : SparseFile) (chunkSize pos blocks block : Nat) :
    Except Error (SparseFile × Nat) :=
  let len := blocks * s.blockSize % 2 ^ 32
  if s.blockSize = 0 then .error .divideByZero
  else if chunkSize % s.blockSize ≠ 0 then .error .einval
  else if chunkSize / s.blockSize ≠ blocks then .error .einval
  else do
    let s ← s.add alloc ⟨.fd pos, len, block⟩
    return (s, pos + len)

def processFillChunk (s : SparseFile) (chunkSize pos blocks block : Nat) :
    Except Error (SparseFile × Nat) :=
  if chunkSize ≠ 4 then .error .einval
  else do
    let fillVal ← readAll bytes pos 4
    let s ← s.add alloc ⟨.fill (decode fillVal), blocks * s.blockSize % 2 ^ 32, block⟩
    return (s, pos + 4)

def processSkipChunk (s : SparseFile) (chunkSize pos : Nat) : Except Error (SparseFile × Nat) :=
  if chunkSize ≠ 0 then .error .einval else .ok (s, pos)

def processCrc32Chunk (s : SparseFile) (chunkSize pos : Nat) : Except Error (SparseFile × Nat) :=
  if chunkSize ≠ 4 then .error .einval
  else do
    let _ ← readAll bytes pos 4
    return (s, pos + 4)

/-- `process_chunk`: the file, the position behind the chunk and the number of blocks. -/
def processChunk (s : SparseFile) (pos chunkHdrSz : Nat) (c : ChunkHeader) (curBlock : Nat) :
    Except Error ((SparseFile × Nat) × Nat) := do
  let chunkDataSize := (c.totalSz + 2 ^ 32 - chunkHdrSz) % 2 ^ 32
  if c.chunkType = typeRaw then
    return (← processRawChunk alloc s chunkDataSize pos c.chunkSz curBlock, c.chunkSz)
  else if c.chunkType = typeFill then
    return (← processFillChunk alloc bytes s chunkDataSize pos c.chunkSz curBlock, c.chunkSz)
  else if c.chunkType = typeDontCare then
    return (← processSkipChunk s chunkDataSize pos, c.chunkSz)
  else if c.chunkType = typeCrc32 then
    return (← processCrc32Chunk bytes s chunkDataSize pos, 0)
  -- a chunk of another type is reported and passed over
  else return ((s, pos), 0)

/-- The loop over the chunks still to be read. -/
def readChunks (h : SparseHeader) : Nat → SparseFile → Nat → Nat → Except Error (SparseFile × Nat)
  | 0, s, _, curBlock => .ok (s, curBlock)
  | n + 1, s, pos, curBlock => do
    let raw ← readAll bytes pos chunkHeaderLen
    let ((s, pos), ret) ←
      processChunk alloc bytes s (pos + h.chunkHdrSz) h.chunkHdrSz (.ofBytes raw) curBlock
    if 2 ^ 31 ≤ ret then .error .negative
    else readChunks h n s pos ((curBlock + ret) % 2 ^ 32)

/-- The header and the checks on it. -/
def readHeader : Except Error SparseHeader := do
  let raw ← readAll bytes 0 sparseHeaderLen
  let h := SparseHeader.ofBytes raw
  if h.magic ≠ headerMagic then .error .einval
  else if h.majorVersion ≠ headerMajorVer then .error .einval
  else if h.fileHdrSz < sparseHeaderLen then .error .einval
  else if h.chunkHdrSz < chunkHeaderLen then .error .einval
  else .ok h

def sparseFileReadSparse (s : SparseFile) : Except Error SparseFile := do
  let h ← readHeader bytes
  let (s, curBlock) ← readChunks alloc bytes h h.totalChunks s h.fileHdrSz 0
  if h.totalBlks ≠ curBlock then .error .einval else .ok s

def sparseFileImport : Except Error SparseFile := do
  let h ← readHeader bytes
  sparseFileReadSparse alloc bytes { blockSize := h.blkSz, len := h.totalBlks * h.blkSz }

end Reader

/-! ## Well-formed images -/

/-- `n` chunks from `pos` on, each as long as its `total_sz` says. -/
def chunksAt (bytes : List UInt8) : Nat → Nat → Option (List ChunkHeader)
  | 0, _ => some []
  | n + 1, pos =>
    let c := ChunkHeader.ofBytes ((bytes.drop pos).take chunkHeaderLen)
    if pos + chunkHeaderLen ≤ bytes.length ∧ pos + c.totalSz ≤ bytes.length then
      (chunksAt bytes n (pos + c.totalSz)).map (c :: ·)
    else none

namespace ChunkHeader

def Known (c : ChunkHeader) : Prop :=
  c.chunkType = typeRaw ∨ c.chunkType = typeFill ∨ c.chunkType = typeDontCare ∨
    c.chunkType = typeCrc32

/-- The bytes of data that a chunk of this type has. -/
def dataSize (h : SparseHeader) (c : ChunkHeader) : Nat :=
  if c.chunkType = typeRaw then c.chunkSz * h.blkSz
  else if c.chunkType = typeDontCare then 0
  else 4

def Matches (h : SparseHeader) (c : ChunkHeader) : Prop :=
  c.Known ∧ c.totalSz = h.chunkHdrSz + c.dataSize h

def blocks (c : ChunkHeader) : Nat := if c.chunkType = typeCrc32 then 0 else c.chunkSz

instance (c : ChunkHeader) : Decidable c.Known := inferInstanceAs (Decidable (_ ∨ _))

instance (h : SparseHeader) (c : ChunkHeader) : Decidable (c.Matches h) :=
  inferInstanceAs (Decidable (_ ∧ _))

end ChunkHeader

def headerOf (bytes : List UInt8) : SparseHeader := .ofBytes (bytes.take sparseHeaderLen)

/-- The chunks that follow the header, if header and chunks are there. -/
def imageChunks (bytes : List UInt8) : Option (List ChunkHeader) :=
  if sparseHeaderLen ≤ bytes.length ∧ (headerOf bytes).fileHdrSz ≤ bytes.length then
    chunksAt bytes (headerOf bytes).totalChunks (headerOf bytes).fileHdrSz
  else none

def WellFormed (bytes : List UInt8) : Prop :=
  ∃ chunks ∈ imageChunks bytes, (∀ c ∈ chunks, c.Matches (headerOf bytes)) ∧
    (chunks.map (·.blocks)).sum = (headerOf bytes).totalBlks

instance (bytes : List UInt8) : Decidable (WellFormed bytes) :=
  inferInstanceAs (Decidable (∃ chunks ∈ imageChunks bytes, _ ∧ _))

def Regular (bytes : List UInt8) : Prop :=
  ∃ chunks ∈ imageChunks bytes, (∀ c ∈ chunks, c.Known ∧ (headerOf bytes).chunkHdrSz ≤ c.totalSz) ∧
    (chunks.map (·.blocks)).sum < 2 ^ 32

/-! ## What is read -/

lemma field_lt (raw : List UInt8) (offset width : Nat) : field raw offset width < 256 ^ width := by
  refine (LittleEndian.decode_lt _).trans_le (Nat.pow_le_pow_right (by omega) ?_)
  simp

lemma readAll_ok {bytes raw : List UInt8} {pos len : Nat} (h : readAll bytes pos len = .ok raw) :
    raw = (bytes.drop pos).take len := by
  rw [readAll] at h
  split at h
  · exact (Except.ok.inj h).symm
  · exact absurd h nofun

lemma bind_ok {α β : Type} {x : Except Error α} {f : α → Except Error β} {b : β}
    (h : (x >>= f) = .ok b) : ∃ a, x = .ok a ∧ f a = .ok b := by
  cases x with
  | error e => exact absurd h nofun
  | ok a => exact ⟨a, rfl, h⟩

lemma guard_ok {α : Type} {p : Prop} [Decidable p] {e : Error} {x : Except Error α} {a : α}
    (h : (if p then .error e else x) = .ok a) : ¬ p ∧ x = .ok a := by
  split at h
  · exact absurd h nofun
  · next hp => exact ⟨hp, h⟩

variable {alloc : BackedBlock → Bool} {bytes : List UInt8} {s s' : SparseFile}
  {pos pos' ret curBlock : Nat} {h : SparseHeader}

lemma add_blockSize {bb : BackedBlock} (h : s.add alloc bb = .ok s') :
    s'.blockSize = s.blockSize := by
  rw [SparseFile.add] at h
  split at h
  · rw [← Except.ok.inj h]
  · exact absurd h nofun

open ChunkHeader

/-- A chunk of a known type that is no smaller than its header matches it, and is read whole. -/
lemma processChunk_ok {c : ChunkHeader}
    (hs : s.blockSize = h.blkSz) (hknown : c.Known) (hsz : h.chunkHdrSz ≤ c.totalSz)
    (htotal : c.totalSz < 2 ^ 32)
    (hok : processChunk alloc bytes s pos h.chunkHdrSz c curBlock = .ok ((s', pos'), ret)) :
    c.totalSz = h.chunkHdrSz + c.dataSize h ∧ ret = c.blocks ∧
      pos' = pos + (c.totalSz - h.chunkHdrSz) ∧ s'.blockSize = s.blockSize := by
  have hdata : (c.totalSz + 2 ^ 32 - h.chunkHdrSz) % 2 ^ 32 = c.totalSz - h.chunkHdrSz := by omega
  rw [processChunk, hdata] at hok
  rcases hknown with ht | ht | ht | ht
  all_goals
    simp only [ht] at hok
    obtain ⟨⟨s1, pos1⟩, hstep, hok⟩ := bind_ok hok
    cases hok
    simp only [dataSize, blocks, ht, typeRaw, typeFill, typeDontCare,
      typeCrc32, if_true, Nat.reduceEqDiff, if_false]
  · obtain ⟨-, hstep⟩ := guard_ok hstep
    obtain ⟨hmod, hstep⟩ := guard_ok hstep
    obtain ⟨hdiv, hstep⟩ := guard_ok hstep
    obtain ⟨s2, hadd, hstep⟩ := bind_ok hstep
    cases hstep
    have hmul := Nat.div_add_mod (c.totalSz - h.chunkHdrSz) s.blockSize
    rw [not_not.mp hmod, not_not.mp hdiv, hs, mul_comm] at hmul
    rw [hs]
    refine ⟨by omega, trivial, ?_, (add_blockSize hadd).trans hs⟩
    omega
  · obtain ⟨hsize, hstep⟩ := guard_ok hstep
    obtain ⟨_, -, hstep⟩ := bind_ok hstep
    obtain ⟨s2, hadd, hstep⟩ := bind_ok hstep
    cases hstep
    exact ⟨by omega, trivial, by omega, add_blockSize hadd⟩
  · obtain ⟨hsize, hstep⟩ := guard_ok hstep
    cases hstep
    exact ⟨by omega, trivial, by omega, rfl⟩
  · obtain ⟨hsize, hstep⟩ := guard_ok hstep
    obtain ⟨_, -, hstep⟩ := bind_ok hstep
    cases hstep
    exact ⟨by omega, trivial, by omega, rfl⟩

/-- The loop goes from chunk to chunk and counts their blocks. -/
lemma readChunks_ok {n curBlock' : Nat} {chunks : List ChunkHeader}
    (hs : s.blockSize = h.blkSz) (hchunks : chunksAt bytes n pos = some chunks)
    (hregular : ∀ c ∈ chunks, c.Known ∧ h.chunkHdrSz ≤ c.totalSz) (hcur : curBlock < 2 ^ 32)
    (hok : readChunks alloc bytes h n s pos curBlock = .ok (s', curBlock')) :
    (∀ c ∈ chunks, c.Matches h) ∧
      curBlock' = (curBlock + (chunks.map (·.blocks)).sum) % 2 ^ 32 := by
  induction n generalizing s pos curBlock chunks with
  | zero =>
    cases hchunks
    cases hok
    simpa using (Nat.mod_eq_of_lt hcur).symm
  | succ n ih =>
    obtain ⟨raw, hraw, hok⟩ := bind_ok hok
    obtain ⟨⟨⟨s1, pos1⟩, ret⟩, hstep, hok⟩ := bind_ok hok
    rw [readAll_ok hraw] at hstep
    simp only [chunksAt] at hchunks
    generalize hc : ofBytes ((bytes.drop pos).take chunkHeaderLen) = c
      at hstep hchunks
    split at hchunks
    · obtain ⟨rest, hrest, rfl⟩ := Option.map_eq_some_iff.mp hchunks
      obtain ⟨hknown, hsz⟩ := hregular c mem_cons_self
      have htotal : c.totalSz < 2 ^ 32 := by
        rw [← hc]
        exact field_lt _ 8 4
      obtain ⟨hmatch, hret, hpos, hs1⟩ := processChunk_ok hs hknown hsz htotal hstep
      have hnext : pos1 = pos + c.totalSz := by omega
      obtain ⟨-, hok⟩ := guard_ok hok
      obtain ⟨hall, hcur'⟩ := ih (hs1.trans hs) (hnext ▸ hrest)
        (fun c hc => hregular c (mem_cons_of_mem _ hc)) (Nat.mod_lt _ (by omega)) hok
      refine ⟨forall_mem_cons.mpr ⟨⟨hknown, hmatch⟩, hall⟩, ?_⟩
      rw [hcur', hret, map_cons, sum_cons, Nat.mod_add_mod, add_assoc]
    · exact absurd hchunks nofun

lemma readHeader_ok (hok : readHeader bytes = .ok h) : h = headerOf bytes := by
  obtain ⟨raw, hraw, hok⟩ := bind_ok hok
  obtain ⟨-, hok⟩ := guard_ok hok
  obtain ⟨-, hok⟩ := guard_ok hok
  obtain ⟨-, hok⟩ := guard_ok hok
  obtain ⟨-, hok⟩ := guard_ok hok
  cases hok
  rw [readAll_ok hraw, drop_zero, headerOf]

/-- **What the import accepts is well formed exactly if it is regular.** -/
theorem import_wellFormed_iff (alloc : BackedBlock → Bool) (bytes : List UInt8) (s : SparseFile)
    (hok : sparseFileImport alloc bytes = .ok s) : WellFormed bytes ↔ Regular bytes := by
  constructor
  · rintro ⟨chunks, hchunks, hmatch, hsum⟩
    refine ⟨chunks, hchunks, fun c hc => ⟨(hmatch c hc).1, ?_⟩, ?_⟩
    · rw [(hmatch c hc).2]
      omega
    · rw [hsum]
      exact field_lt _ 16 4
  · rintro ⟨chunks, hchunks, hregular, hsum⟩
    refine ⟨chunks, hchunks, ?_⟩
    obtain ⟨h, hheader, hok⟩ := bind_ok hok
    obtain ⟨h', hheader', hok⟩ := bind_ok hok
    obtain rfl := readHeader_ok hheader
    obtain rfl := readHeader_ok hheader'
    obtain ⟨⟨s', curBlock⟩, hread, hok⟩ := bind_ok hok
    rw [imageChunks] at hchunks
    split at hchunks
    · obtain ⟨hall, hcur⟩ := readChunks_ok rfl hchunks hregular (by omega) hread
      refine ⟨hall, ?_⟩
      rw [zero_add, Nat.mod_eq_of_lt hsum] at hcur
      rw [← hcur, not_not.mp (guard_ok hok).1]
    · exact absurd hchunks nofun

/-- An image with the given header fields and chunk headers, and no data. -/
def imageOf (chunkHdrSz totalBlks : Nat) (chunks : List ChunkHeader) : List UInt8 :=
  encode 4 headerMagic ++ encode 2 1 ++ encode 2 0 ++ encode 2 28 ++ encode 2 chunkHdrSz ++
    encode 4 4096 ++ encode 4 totalBlks ++ encode 4 chunks.length ++ encode 4 0 ++
    chunks.flatMap fun c => encode 2 c.chunkType ++ encode 2 0 ++ encode 4 c.chunkSz ++
      encode 4 c.totalSz

/-- An image of six blocks of four bytes: one raw block, two filled ones and three that do not
matter. -/
def mixedImage : List UInt8 :=
  encode 4 headerMagic ++ encode 2 1 ++ encode 2 0 ++ encode 2 28 ++ encode 2 12 ++ encode 4 4 ++
    encode 4 6 ++ encode 4 3 ++ encode 4 0 ++
    (encode 2 typeRaw ++ encode 2 0 ++ encode 4 1 ++ encode 4 16 ++ [1, 2, 3, 4]) ++
    (encode 2 typeFill ++ encode 2 0 ++ encode 4 2 ++ encode 4 16 ++ [5, 5, 5, 5]) ++
    (encode 2 typeDontCare ++ encode 2 0 ++ encode 4 3 ++ encode 4 12)

theorem import_wellFormed_iff_mixed : Regular mixedImage ∧ WellFormed mixedImage := by
  have hregular : Regular mixedImage := by
    unfold Regular
    decide +kernel
  have hok : (sparseFileImport (fun _ => true) mixedImage).isOk := by decide +kernel
  cases himport : sparseFileImport (fun _ => true) mixedImage with
  | error e => rw [himport] at hok; cases hok
  | ok s => exact ⟨hregular, (import_wellFormed_iff (fun _ => true) _ s himport).mpr hregular⟩

/-- The import takes an image that is not well formed. -/
def TakesMalformed (bytes : List UInt8) : Prop :=
  (sparseFileImport (fun _ => true) bytes).isOk = true ∧ ¬ WellFormed bytes

instance (bytes : List UInt8) : Decidable (TakesMalformed bytes) :=
  inferInstanceAs (Decidable (_ ∧ _))

/-- A chunk of an unknown type, a raw chunk without its data, blocks that wrap around to 0, and a
raw chunk smaller than its header. -/
theorem import_malformed :
    TakesMalformed (imageOf 12 0 [⟨0xCAC5, 7, 12⟩]) ∧
    TakesMalformed (imageOf 12 1 [⟨typeRaw, 1, 4108⟩]) ∧
    TakesMalformed (imageOf 12 0 [⟨typeDontCare, 2 ^ 31 - 1, 12⟩, ⟨typeDontCare, 2 ^ 31 - 1, 12⟩,
      ⟨typeDontCare, 2, 12⟩]) ∧
    TakesMalformed (imageOf 4096 (2 ^ 20 - 1) [⟨typeRaw, 2 ^ 20 - 1, 0⟩]) := by
  decide +kernel

end Sparse
