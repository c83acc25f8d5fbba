import AlpsSystem.Lib.Runs

/-!
# The block list of a sparse file

`backed_block_add_*`: the chunks of a sparse file are kept in a sorted list, in which neighbours
that continue each other are merged. Memory is assumed to be there and the assertions are left out;
a file offset is an integer of any size.

* `run_exact` — as long as no merged length exceeds 32 bits, the list is sorted, its chunks are
  disjoint and hold exactly the bytes of the chunks that were added, in whatever order.
-/

namespace Sparse

open List

inductive Backing where
  | data (address : Nat)
  | fill (val : UInt32)
  | file (filename : String) (offset : Int)
  | fd (fd : Int) (offset : Int)
deriving DecidableEq

structure Backed where
  backing : Backing
  len : UInt32
  block : UInt32
deriving DecidableEq

/-- `last_used` is the position of the chunk it points to. -/
structure BlockList where
  blocks : List Backed := []
  lastUsed : Option Nat := none

variable (bs : UInt32)

/-- The checks of `merge_bb`. -/
def mergeable (a b : Backed) : Bool :=
  a.block + a.len / bs == b.block &&
    match a.backing, b.backing with
    | .fill val, .fill val' => val == val'
    | .file name offset, .file name' offset' => name == name' && offset + a.len.toNat == offset'
    | .fd n offset, .fd n' offset' => n == n' && offset + a.len.toNat == offset'
    | _, _ => false

def merged (a b : Backed) : Backed := { a with len := a.len + b.len }

/-- `merge_bb(bbl, new_bb, new_bb->next)`. -/
def mergeNext (new : Backed) : List Backed → Backed × List Backed
  | [] => (new, [])
  | next :: rest => if mergeable bs new next then (merged new next, rest) else (new, next :: rest)

/-- The end of `queue_bb`: the new chunk comes between `bb` and `rest`. -/
def insertAfter (before : List Backed) (bb new : Backed) (rest : List Backed) : BlockList :=
  let after := mergeNext bs new rest
  if mergeable bs bb after.1 then ⟨before ++ merged bb after.1 :: after.2, some before.length⟩
  else ⟨before ++ bb :: after.1 :: after.2, some (before.length + 1)⟩

namespace BlockList

/-- Where the search starts: at the last chunk used if that is before the new one. -/
def searchFrom (l : BlockList) (block : UInt32) : Nat :=
  match l.lastUsed.bind fun i => l.blocks[i]? with
  | some c => if c.block < block then l.lastUsed.getD 0 else 0
  | none => 0

/-- The position of the chunk after which the new one belongs. -/
def search (l : BlockList) (block : UInt32) : Nat :=
  l.searchFrom block + ((l.blocks.drop (l.searchFrom block + 1)).takeWhile (·.block < block)).length

def queueBb (l : BlockList) (new : Backed) : BlockList :=
  match l.blocks with
  | [] => { l with blocks := [new] }
  | first :: _ =>
    if new.block < first.block then ⟨new :: l.blocks, l.lastUsed.map (· + 1)⟩
    else
      match l.blocks.drop (l.search new.block) with
      | [] => l
      | bb :: rest => insertAfter bs (l.blocks.take (l.search new.block)) bb new rest

end BlockList

def run (calls : List Backed) : BlockList := calls.foldl (BlockList.queueBb bs) {}

/-! ## What a chunk holds -/

/-- Where a byte comes from; a fill is repeated from the start of every block. -/
inductive Origin where
  | data (address : Nat)
  | fill (val : UInt32) (index : Nat)
  | file (filename : String) (offset : Int)
  | fd (fd : Int) (offset : Int)
deriving DecidableEq

def Backing.origin (x d : Nat) : Backing → Origin
  | .data address => .data (address + d)
  | .fill val => .fill val (x % bs.toNat)
  | .file name offset => .file name (offset + d)
  | .fd n offset => .fd n (offset + d)

namespace Backed

def start (c : Backed) : Nat := c.block.toNat * bs.toNat

def stop (c : Backed) : Nat := c.start bs + c.len.toNat

/-- The chunk puts the byte `o` at the position `x` of the image. -/
def Holds (c : Backed) (x : Nat) (o : Origin) : Prop :=
  c.start bs ≤ x ∧ x < c.stop bs ∧ o = c.backing.origin bs x (x - c.start bs)

/-- The blocks of `a` come before those of `b`. -/
def Before (a b : Backed) : Prop := a.stop bs ≤ b.start bs

def Apart (a b : Backed) : Prop := a.Before bs b ∨ b.Before bs a

instance (a b : Backed) : Decidable (a.Apart bs b) :=
  inferInstanceAs (Decidable (_ ≤ _ ∨ _ ≤ _))

end Backed

/-- Sorted, disjoint, and no chunk is empty. -/
structure Sorted (l : List Backed) : Prop where
  before : l.Pairwise (Backed.Before bs)
  nonempty : ∀ c ∈ l, 0 < c.len

def Holds (l : List Backed) (x : Nat) (o : Origin) : Prop := ∃ c ∈ l, c.Holds bs x o

variable {bs} {a b new : Backed} {calls l₁ l₂ : List Backed}

open Backed BlockList

lemma Backed.Before.block_lt (h : a.Before bs b) (ha : 0 < a.len) : a.block < b.block := by
  have hlen : 0 < a.len.toNat := ha
  refine UInt32.lt_iff_toNat_lt.mpr (Nat.lt_of_mul_lt_mul_right (a := bs.toNat) ?_)
  simp only [Before, stop, start] at h
  omega

lemma Backed.Apart.before (h : a.Apart bs b) (hb : 0 < b.len)
    (hlt : a.block ≤ b.block) : a.Before bs b := by
  refine h.resolve_right fun hba => ?_
  have hblock := hba.block_lt hb
  exact absurd (UInt32.lt_of_le_of_lt hlt hblock) (UInt32.lt_irrefl _)

open UInt32 (toNat toNat_add lt_trans not_lt le_of_lt)

/-- Chunks that merge touch, and the second continues the first. -/
lemma stop_eq_start (h : a.Before bs b) (ha : 0 < a.len)
    (hmerge : mergeable bs a b) : a.stop bs = b.start bs := by
  have hlt := UInt32.lt_iff_toNat_lt.mp (h.block_lt ha)
  rw [mergeable, Bool.and_eq_true, beq_iff_eq] at hmerge
  have hblock := congrArg toNat hmerge.1
  rw [toNat_add, UInt32.toNat_div] at hblock
  have hdiv : a.len.toNat / bs.toNat ≤ a.len.toNat := Nat.div_le_self _ _
  have hlen := a.len.toNat_lt
  have hb : b.block.toNat = a.block.toNat + a.len.toNat / bs.toNat := by
    generalize a.len.toNat / bs.toNat = q at hblock hdiv
    omega
  have hmul := Nat.div_mul_le_self a.len.toNat bs.toNat
  simp only [Backed.Before, Backed.stop, Backed.start, hb, add_mul] at h ⊢
  omega

section

variable (hfits : a.len.toNat + b.len.toNat < 2 ^ 32)

include hfits

lemma merged_len : (merged a b).len.toNat = a.len.toNat + b.len.toNat := by
  rw [merged, toNat_add, Nat.mod_eq_of_lt hfits]

lemma merged_stop (htouch : a.stop bs = b.start bs) : (merged a b).stop bs = b.stop bs := by
  have hstart : (merged a b).start bs = a.start bs := rfl
  rw [stop, merged_len hfits, hstart, ← add_assoc]
  rw [stop] at htouch
  rw [htouch, stop]

lemma merged_holds (h : a.Before bs b) (ha : 0 < a.len) (hmerge : mergeable bs a b) (x : Nat)
    (o : Origin) : (merged a b).Holds bs x o ↔ a.Holds bs x o ∨ b.Holds bs x o := by
  have htouch := stop_eq_start h ha hmerge
  have hstop := merged_stop hfits htouch
  have hstart : (merged a b).start bs = a.start bs := rfl
  have hle : b.start bs ≤ b.stop bs := le_self_add
  have hle' : a.start bs ≤ a.stop bs := le_self_add
  -- past the first chunk its backing goes on as that of the second
  have hsecond : b.start bs ≤ x →
      a.backing.origin bs x (x - a.start bs) = b.backing.origin bs x (x - b.start bs) := by
    intro hx
    have hsub : x - a.start bs = a.len.toNat + (x - b.start bs) := by
      have : a.start bs + a.len.toNat = b.start bs := htouch
      omega
    rw [mergeable] at hmerge
    cases ha : a.backing <;> cases hb : b.backing <;> simp_all [Backing.origin] <;> omega
  simp only [Backed.Holds, hstop]
  have hbacking : (merged a b).backing = a.backing := rfl
  constructor
  · rintro ⟨hx, hx', rfl⟩
    by_cases hfirst : x < a.stop bs
    · exact .inl ⟨hx, hfirst, rfl⟩
    · exact .inr ⟨by omega, hx', hsecond (by omega)⟩
  · rintro (⟨hx, hx', rfl⟩ | ⟨hx, hx', rfl⟩)
    · exact ⟨hx, by omega, rfl⟩
    · exact ⟨by omega, hx', (hsecond hx).symm⟩

/-- Merging two neighbours changes nothing but the list. -/
lemma Sorted.merge {before rest : List Backed}
    (h : Sorted bs (before ++ a :: b :: rest)) (hmerge : mergeable bs a b = true) :
    Sorted bs (before ++ merged a b :: rest) ∧ ∀ x o,
      Holds bs (before ++ merged a b :: rest) x o ↔ Holds bs (before ++ a :: b :: rest) x o := by
  have hab : a.Before bs b := by
    have hp := (pairwise_append.mp h.before).2.1
    exact (pairwise_cons.mp hp).1 b (by simp)
  have ha : 0 < a.len := h.nonempty a (by simp)
  have htouch := stop_eq_start hab ha hmerge
  have hstop := merged_stop hfits htouch
  constructor
  · constructor
    · have hp := h.before
      simp only [pairwise_append, pairwise_cons, mem_cons] at hp ⊢
      obtain ⟨hbefore, ⟨ha', hb', hrest⟩, hcross⟩ := hp
      refine ⟨hbefore, ⟨fun c hc => ?_, hrest⟩, ?_⟩
      · rw [Backed.Before, hstop]
        exact hb' c hc
      · rintro c hc d (rfl | hd)
        · exact hcross c hc a (.inl rfl)
        · exact hcross c hc d (.inr (.inr hd))
    · intro c hc
      simp only [mem_append, mem_cons] at hc
      rcases hc with hc | rfl | hc
      · exact h.nonempty c (by simp [hc])
      · have hpos : 0 < a.len.toNat := ha
        refine UInt32.lt_iff_toNat_lt.mpr ?_
        rw [merged_len hfits]
        exact hpos.trans_le le_self_add
      · exact h.nonempty c (by simp [hc])
  · intro x o
    have hsame := merged_holds hfits hab ha hmerge x o
    simp only [Holds, mem_append, mem_cons, or_and_right, exists_or, exists_eq_left,
      hsame, or_assoc]

end

/-! ## The search -/

namespace BlockList

variable {l : BlockList} {block : UInt32} {first : Backed} {rest : List Backed}

lemma searchFrom_spec (hl : l.blocks = first :: rest) (hfirst : first.block < block) :
    ∃ c, l.blocks[l.searchFrom block]? = some c ∧ c.block < block := by
  have hzero : ∃ c, l.blocks[0]? = some c ∧ c.block < block := ⟨first, by simp [hl], hfirst⟩
  cases hlast : l.lastUsed with
  | none => simpa [searchFrom, hlast] using hzero
  | some i =>
    cases hi : l.blocks[i]? with
    | none => simpa [searchFrom, hlast, hi] using hzero
    | some c =>
      by_cases hc : c.block < block
      · simp [searchFrom, hlast, hi, hc]
      · simpa [searchFrom, hlast, hi, hc] using hzero

/-- From the cached position or from the start, the search ends at the last chunk before the block.
-/
lemma search_succ (hsorted : l.blocks.Pairwise (·.block < ·.block))
    (hl : l.blocks = first :: rest) (hfirst : first.block < block) :
    l.search block + 1 = (l.blocks.takeWhile (·.block < block)).length := by
  obtain ⟨c, hc, hlt⟩ := searchFrom_spec hl hfirst
  rw [search]
  generalize l.searchFrom block = i at hc
  obtain ⟨hi, rfl⟩ := List.getElem?_eq_some_iff.mp hc
  have hall : ∀ c ∈ l.blocks.take (i + 1), decide (c.block < block) := by
    intro c hc
    obtain ⟨j, hj, rfl⟩ := getElem_of_mem hc
    rw [length_take] at hj
    rw [getElem_take, decide_eq_true_eq]
    rcases lt_or_ge j i with hji | hji
    · exact lt_trans (pairwise_iff_getElem.mp hsorted j i (by omega) hi hji) hlt
    · obtain rfl : j = i := by omega
      exact hlt
  have hsplit : l.blocks.takeWhile (·.block < block) = l.blocks.take (i + 1) ++
      (l.blocks.drop (i + 1)).takeWhile (·.block < block) := by
    rw [← takeWhile_append_of_pos hall, take_append_drop]
  rw [hsplit, length_append, length_take]
  omega

lemma search_split (hsorted : l.blocks.Pairwise (·.block < ·.block))
    (hl : l.blocks = first :: rest) (hfirst : first.block < block) :
    ∃ l₁ bb, l.blocks.takeWhile (·.block < block) = l₁ ++ [bb] ∧ l.search block = l₁.length ∧
      l.blocks = l₁ ++ bb :: l.blocks.dropWhile (·.block < block) := by
  have hsearch := search_succ hsorted hl hfirst
  have hsplit := takeWhile_append_dropWhile (p := (·.block < block)) (l := l.blocks)
  rcases eq_nil_or_concat (l.blocks.takeWhile (·.block < block)) with hnil | ⟨l₁, bb, heq⟩
  · simp [hnil] at hsearch
  · rw [concat_eq_append] at heq
    rw [heq] at hsearch hsplit
    exact ⟨l₁, bb, heq, by simpa using hsearch, by simpa using hsplit.symm⟩

lemma le_of_mem_dropWhile {blocks : List Backed} (hsorted : blocks.Pairwise (·.block < ·.block))
    {c : Backed} (hc : c ∈ blocks.dropWhile (·.block < block)) : block ≤ c.block := by
  induction blocks with
  | nil => simp at hc
  | cons a blocks ih =>
    rw [pairwise_cons] at hsorted
    by_cases ha : a.block < block
    · rw [dropWhile_cons_of_pos (by simpa using ha)] at hc
      exact ih hsorted.2 hc
    · rw [dropWhile_cons_of_neg (by simpa using ha)] at hc
      rcases mem_cons.mp hc with rfl | hc
      · exact not_lt.mp ha
      · exact UInt32.le_trans (not_lt.mp ha) (le_of_lt (hsorted.1 c hc))

end BlockList

/-! ## Runs -/

/-- What the list should be after the calls. -/
structure Exact (bs : UInt32) (calls : List Backed) (l : BlockList) : Prop where
  sorted : Sorted bs l.blocks
  lastUsed : ∀ i ∈ l.lastUsed, i < l.blocks.length
  holds : ∀ x o, Holds bs l.blocks x o ↔ Holds bs calls x o

/-- The lengths that are added up when the new chunk comes stay below `2 ^ 32`. -/
def Fits (bs : UInt32) (l : List Backed) (new : Backed) : Prop :=
  let rest := l.dropWhile (·.block < new.block)
  let new' := (mergeNext bs new rest).1
  ∀ bb ∈ (l.takeWhile (·.block < new.block)).getLast?,
    (∀ next ∈ rest.head?, mergeable bs new next = true → new.len.toNat + next.len.toNat < 2 ^ 32) ∧
    (mergeable bs bb new' = true → bb.len.toNat + new'.len.toNat < 2 ^ 32)

instance (bs : UInt32) (l : List Backed) (new : Backed) : Decidable (Fits bs l new) := by
  unfold Fits
  infer_instance

lemma insertAfter_exact {bb : Backed} (h : Sorted bs (l₁ ++ bb :: new :: l₂))
    (hnext : ∀ next ∈ l₂.head?, mergeable bs new next →
      new.len.toNat + next.len.toNat < 2 ^ 32)
    (hbb : mergeable bs bb (mergeNext bs new l₂).1 →
      bb.len.toNat + (mergeNext bs new l₂).1.len.toNat < 2 ^ 32) :
    Exact bs (l₁ ++ bb :: new :: l₂) (insertAfter bs l₁ bb new l₂) := by
  have hafter : Sorted bs (l₁ ++ bb :: (mergeNext bs new l₂).1 :: (mergeNext bs new l₂).2) ∧
      ∀ x o, Holds bs (l₁ ++ bb :: (mergeNext bs new l₂).1 :: (mergeNext bs new l₂).2) x o ↔
        Holds bs (l₁ ++ bb :: new :: l₂) x o := by
    cases l₂ with
    | nil => exact ⟨h, fun _ _ => Iff.rfl⟩
    | cons next rest =>
      rw [mergeNext]
      split
      · next hmerge =>
        have hassoc : l₁ ++ bb :: new :: next :: rest =
            (l₁ ++ [bb]) ++ new :: next :: rest := by simp
        rw [hassoc] at h ⊢
        simpa using h.merge (hnext next rfl hmerge) hmerge
      · exact ⟨h, fun _ _ => Iff.rfl⟩
  rw [insertAfter]
  split
  · next hmerge =>
    obtain ⟨hsorted, hholds⟩ := hafter.1.merge (hbb hmerge) hmerge
    exact ⟨hsorted, by simp, fun x o => (hholds x o).trans (hafter.2 x o)⟩
  · exact ⟨hafter.1, by simp, hafter.2⟩

/-- A chunk apart from the calls is apart from the chunks of the list. -/
lemma Exact.apart {l : BlockList} (h : Exact bs calls l) (hnew : 0 < new.len)
    (hapart : ∀ c ∈ calls, c.Apart bs new) {c : Backed} (hc : c ∈ l.blocks) : c.Apart bs new := by
  by_contra hne
  simp only [Backed.Apart, Backed.Before] at hne
  have hlen : 0 < c.len.toNat := h.sorted.nonempty c hc
  have hlen' : 0 < new.len.toNat := hnew
  have hin : max (c.start bs) (new.start bs) < c.stop bs := by
    simp only [stop] at hne ⊢
    omega
  obtain ⟨c', hc', hstart, hstop, -⟩ :=
    (h.holds (max (c.start bs) (new.start bs)) _).mp ⟨c, hc, le_max_left _ _, hin, rfl⟩
  rcases hapart c' hc' with hbefore | hbefore
  · rw [Backed.Before] at hbefore
    omega
  · simp only [Backed.Before, stop] at hbefore hne
    omega

open Backed.Apart

/-- One call. -/
lemma Exact.queueBb {l : BlockList} (h : Exact bs calls l) (hnew : 0 < new.len)
    (hapart : ∀ c ∈ calls, c.Apart bs new) (hfits : Fits bs l.blocks new) :
    Exact bs (calls ++ [new]) (l.queueBb bs new) := by
  have happ : ∀ l' : List Backed, l'.Perm (new :: l.blocks) → ∀ x o,
      Holds bs l' x o ↔ Holds bs (calls ++ [new]) x o := by
    intro l' hperm x o
    have hold := h.holds x o
    simp only [Holds, hperm.mem_iff, mem_cons, mem_append, or_and_right, exists_or, not_mem_nil,
      or_false] at hold ⊢
    rw [hold, or_comm]
  have hpos : ∀ c ∈ new :: l.blocks, 0 < c.len := forall_mem_cons.mpr ⟨hnew, h.sorted.nonempty⟩
  have hlist := fun c hc => h.apart hnew hapart (c := c) hc
  cases hl : l.blocks with
  | nil =>
    simp only [BlockList.queueBb, hl]
    refine ⟨⟨pairwise_singleton _ _, by simpa using hnew⟩, fun i hi => ?_, happ _ (by simp [hl])⟩
    have hlt := h.lastUsed i hi
    simp [hl] at hlt
  | cons first rest =>
    have hblocks : l.blocks.Pairwise (·.block < ·.block) :=
      h.sorted.before.imp_of_mem fun ha _ hab => hab.block_lt (h.sorted.nonempty _ ha)
    by_cases hfirst : new.block < first.block
    · have hall : ∀ c ∈ l.blocks, new.Before bs c := by
        intro c hc
        refine before (hlist c hc).symm (h.sorted.nonempty c hc) (le_of_lt ?_)
        rw [hl] at hc hblocks
        rcases mem_cons.mp hc with rfl | hc
        · exact hfirst
        · exact lt_trans hfirst ((pairwise_cons.mp hblocks).1 c hc)
      simp only [BlockList.queueBb, hl, hfirst]
      rw [← hl]
      refine ⟨⟨pairwise_cons.mpr ⟨hall, h.sorted.before⟩, hpos⟩, ?_, happ _ (.refl _)⟩
      intro i hi
      obtain ⟨j, hj, rfl⟩ := Option.map_eq_some_iff.mp hi
      simpa using h.lastUsed j hj
    · have hbefore : first.Before bs new :=
        (hlist first (by simp [hl])).before hnew (not_lt.mp hfirst)
      have hlt := hbefore.block_lt (h.sorted.nonempty first (by simp [hl]))
      obtain ⟨l₁, bb, htake, hsearch, hsplit⟩ := search_split hblocks hl hlt
      have hdrop : ∀ c ∈ l.blocks.dropWhile (·.block < new.block), new.block ≤ c.block :=
        fun c hc => le_of_mem_dropWhile hblocks hc
      have hearly : ∀ c ∈ l₁ ++ [bb], c.Before bs new := fun c hc => by
        have hmem : c ∈ l.blocks := by
          rw [hsplit]
          simp only [mem_append, mem_cons, not_mem_nil, or_false] at hc ⊢
          exact hc.imp_right .inl
        have hblock := mem_takeWhile_imp (htake ▸ hc)
        exact (hlist c hmem).before hnew (le_of_lt (by simpa using hblock))
      obtain ⟨hnext, hbb⟩ := hfits bb (by rw [htake]; simp)
      generalize l.blocks.dropWhile (·.block < new.block) = l₂ at hsplit hdrop hnext hbb
      have hlate : ∀ c ∈ l₂, new.Before bs c := fun c hc => by
        have hmem : c ∈ l.blocks := by rw [hsplit]; simp [hc]
        exact before (hlist c hmem).symm (h.sorted.nonempty c hmem) (hdrop c hc)
      have hperm : (l₁ ++ bb :: new :: l₂).Perm (new :: l.blocks) := by
        rw [hsplit]
        exact ((List.Perm.swap new bb l₂).append_left l₁).trans perm_middle
      have hsorted : Sorted bs (l₁ ++ bb :: new :: l₂) := by
        refine ⟨?_, fun c hc => hpos c (hperm.mem_iff.mp hc)⟩
        have hp := h.sorted.before
        rw [hsplit] at hp
        simp only [pairwise_append, pairwise_cons] at *
        grind
      have hexact := insertAfter_exact hsorted hnext hbb
      have hqueue : l.queueBb bs new = insertAfter bs l₁ bb new l₂ := by
        rw [BlockList.queueBb, hl]
        simp only [hfirst]
        rw [← hl, hsearch, hsplit]
        simp
      rw [hqueue]
      exact ⟨hexact.sorted, hexact.lastUsed, fun x o => (hexact.holds x o).trans (happ _ hperm x o)⟩

/-- **The list holds what was added**, sorted and without overlaps. -/
theorem run_exact (bs : UInt32) (calls : List Backed) (hapart : calls.Pairwise (Backed.Apart bs))
    (hne : ∀ c ∈ calls, 0 < c.len)
    (hfits : Runs.EachStep (fun l c => Fits bs l.blocks c) (BlockList.queueBb bs) {} calls) :
    Exact bs calls (run bs calls) := by
  suffices hrun : ∀ (todo done : List Backed) (l : BlockList), Exact bs done l →
      (done ++ todo).Pairwise (Backed.Apart bs) → (∀ c ∈ todo, 0 < c.len) →
      Runs.EachStep (fun l c => Fits bs l.blocks c) (queueBb bs) l todo →
      Exact bs (done ++ todo) (todo.foldl (queueBb bs) l) from
    hrun calls [] {} ⟨⟨.nil, nofun⟩, nofun, fun _ _ => Iff.rfl⟩ hapart hne hfits
  intro todo
  induction todo with
  | nil => intro done l h _ _ _; simpa using h
  | cons c todo ih =>
    intro done l h hapart hne hfits
    have hstep := h.queueBb (hne c (by simp))
      (fun d hd => (pairwise_append.mp hapart).2.2 d hd c (by simp)) hfits.1
    simpa using ih (done ++ [c]) _ hstep (by simpa using hapart) (fun d hd => hne d (by simp [hd]))
      hfits.2

/-- Zeros, by length and first block. -/
def zeros (calls : List (UInt32 × UInt32)) : List Backed := calls.map fun c => ⟨.fill 0, c.1, c.2⟩

theorem run_exact_sample :
    Exact 4096 (zeros [(4096, 2), (4096, 0), (4096, 1)])
      (run 4096 (zeros [(4096, 2), (4096, 0), (4096, 1)])) :=
  run_exact 4096 _ (by decide) (by decide) (by decide)

def twoFills : List Backed := zeros [(2 ^ 31, 0), (2 ^ 31, 524288)]

/-- **Two chunks of 2 GiB are lost**: their lengths add up to 0. -/
theorem run_loses :
    twoFills.Pairwise (Backed.Apart 4096) ∧ (∀ c ∈ twoFills, 0 < c.len) ∧
      Holds 4096 twoFills 0 (.fill 0 0) ∧ ∀ x o, ¬ Holds 4096 (run 4096 twoFills).blocks x o := by
  have hrun : (run 4096 twoFills).blocks = [⟨.fill 0, 0, 0⟩] := by decide
  refine ⟨by decide, by decide, ⟨_, mem_cons_self, le_rfl, by decide, rfl⟩, ?_⟩
  intro x o
  rw [hrun]
  simp [Holds, Backed.Holds, stop, start]

end Sparse
