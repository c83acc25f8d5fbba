import AlpsSystem.Keymaster.Authentication

/-!
# Limits on the use of keys

The limits of a key hold from boot on, whatever is done with the other keys in the shared
tables.

* `usage_limits` — the uses of a key are as far apart and as few as it says.
-/

namespace Keymaster

open List

/-! ## The table of access times -/

section Times

variable {k n now now' : Nat} {m : AccessTimeMap} {last : Option Nat}

/-- What the loop of `UpdateKeyAccessTime` does to the list. -/
structure Updated (keyid currentTime : Nat) (list : List AccessTime)
    (result : Bool × List AccessTime) : Prop where
  sublist : (result.2.map AccessTime.keyid).Sublist (list.map AccessTime.keyid)
  others : ∀ entry ∈ result.2, entry.keyid ≠ keyid → entry ∈ list
  kept : ∀ entry ∈ list, entry.keyid ≠ keyid → entry ∈ result.2 ∨
    entry.timeout ≤ (currentTime + 2 ^ 32 - entry.accessTime) % 2 ^ 32
  missing : result.1 = false → ∀ entry ∈ list, entry.keyid ≠ keyid
  found : result.1 = true → ∃ entry ∈ result.2, entry.keyid = keyid ∧
    entry.accessTime = currentTime ∧ ∃ old ∈ list, old.keyid = keyid ∧ entry.timeout = old.timeout

lemma updateAccessList_spec (keyid currentTime : Nat) (list : List AccessTime) :
    Updated keyid currentTime list (updateAccessList keyid currentTime list) := by
  induction list with
  | nil => exact ⟨.refl _, nofun, nofun, fun _ => nofun, nofun⟩
  | cons entry rest ih =>
    unfold updateAccessList
    by_cases hkey : entry.keyid = keyid
    · rw [if_pos hkey]
      refine ⟨.refl _, ?_, ?_, nofun, fun _ => ⟨_, mem_cons_self, hkey, rfl, entry,
        mem_cons_self, hkey, rfl⟩⟩
      · intro other hmem hne
        rcases mem_cons.mp hmem with rfl | hrest
        · exact absurd hkey hne
        · exact .tail _ hrest
      · intro other hmem hne
        rcases mem_cons.mp hmem with rfl | hrest
        · exact absurd hkey hne
        · exact .inl (.tail _ hrest)
    · rw [if_neg hkey]
      have hmissing : (updateAccessList keyid currentTime rest).1 = false →
          ∀ other ∈ entry :: rest, other.keyid ≠ keyid := by
        intro hfalse other hmem
        rcases mem_cons.mp hmem with rfl | hrest
        · exact hkey
        · exact ih.missing hfalse other hrest
      split
      case isTrue hexpired =>
        refine ⟨ih.sublist.cons _, fun other hmem hne =>
          .tail _ (ih.others other hmem hne), ?_, hmissing, ?_⟩
        · intro other hmem hne
          rcases mem_cons.mp hmem with rfl | hrest
          · exact .inr hexpired
          · exact ih.kept other hrest hne
        · intro htrue
          obtain ⟨other, hmem, hother, htime, old, hold, hrest⟩ := ih.found htrue
          exact ⟨other, hmem, hother, htime, old, .tail _ hold, hrest⟩
      case isFalse =>
        refine ⟨ih.sublist.cons_cons _, ?_, ?_, hmissing, ?_⟩
        · intro other hmem hne
          rcases mem_cons.mp hmem with rfl | hrest
          · exact mem_cons_self
          · exact .tail _ (ih.others other hrest hne)
        · intro other hmem hne
          rcases mem_cons.mp hmem with rfl | hrest
          · exact .inl mem_cons_self
          · exact (ih.kept other hrest hne).imp (mem_cons_of_mem _) id
        · intro htrue
          obtain ⟨other, hmem, hother, htime, old, hold, hrest⟩ := ih.found htrue
          exact ⟨other, .tail _ hmem, hother, htime, old, .tail _ hold, hrest⟩

/-- What the table says about a key that may be used every `n` seconds and was last used at
`last`: its entry is not older, and is dropped only when `n` seconds have passed. -/
structure Timed (k n : Nat) (list : List AccessTime) (now : Nat) (last : Option Nat) : Prop where
  unique : (list.map AccessTime.keyid).Nodup
  timeout : ∀ entry ∈ list, entry.keyid = k → entry.timeout = n
  past : ∀ entry ∈ list, entry.keyid = k → entry.accessTime ≤ now
  recent : ∀ t, last = some t → ∀ entry ∈ list, entry.keyid = k → t ≤ entry.accessTime
  kept : ∀ t, last = some t → (∃ entry ∈ list, entry.keyid = k) ∨ t + n ≤ now

open AccessTime

/-- Time passes, and an entry of the key goes only when its time has come. -/
lemma Timed.narrow {list list' : List AccessTime} (h : Timed k n list now last) (hnow : now ≤ now')
    (hunique : (list'.map keyid).Nodup)
    (hold : ∀ entry ∈ list', entry.keyid = k → entry ∈ list)
    (hkept : ∀ t, last = some t → ∀ entry ∈ list, entry.keyid = k → entry ∈ list' ∨ t + n ≤ now') :
    Timed k n list' now' last where
  unique := hunique
  timeout entry hmem hkey := h.timeout entry (hold entry hmem hkey) hkey
  past entry hmem hkey := (h.past entry (hold entry hmem hkey) hkey).trans hnow
  recent t ht entry hmem hkey := h.recent t ht entry (hold entry hmem hkey) hkey
  kept t ht := by
    rcases h.kept t ht with ⟨entry, hmem, hkey⟩ | hpassed
    · exact (hkept t ht entry hmem hkey).imp (fun hin => ⟨entry, hin, hkey⟩) id
    · exact .inr (hpassed.trans hnow)

variable (h : Timed k n m.lastAccessList now last)

include h

lemma Timed.later (hnow : now ≤ now') : Timed k n m.lastAccessList now' last :=
  h.narrow hnow h.unique (fun _ hmem _ => hmem) fun _ _ _ hmem _ => .inl hmem

omit h in
/-- The entry of a key that has just been used. -/
theorem Timed.fresh {list : List AccessTime} {own : AccessTime}
    (hunique : (list.map AccessTime.keyid).Nodup) (hmem : own ∈ list) :
    Timed own.keyid own.timeout list own.accessTime (some own.accessTime) := by
  have honly : ∀ entry ∈ list, entry.keyid = own.keyid → entry = own := fun entry hentry hk =>
    inj_on_of_nodup_map hunique hentry hmem hk
  refine ⟨hunique, fun entry hentry hk => ?_, fun entry hentry hk => ?_,
    fun t ht entry hentry hk => ?_, fun _ _ => .inl ⟨own, hmem, rfl⟩⟩
  · rw [honly entry hentry hk]
  · rw [honly entry hentry hk]
  · cases ht
    rw [honly entry hentry hk]

open AccessTimeMap

/-- Another key is used. -/
lemma Timed.update_other (hnow : now ≤ now')
    (hclock : now' < 2 ^ 32) {keyid : Nat} (hne : keyid ≠ k) (timeout : Nat) :
    Timed k n (m.updateKeyAccessTime keyid now' timeout).2.lastAccessList now' last := by
  have hspec := updateAccessList_spec keyid now' m.lastAccessList
  have hother : ∀ entry : AccessTime, entry.keyid = k → entry.keyid ≠ keyid :=
    fun _ hkey heq => hne (heq.symm.trans hkey)
  have hlist : Timed k n (updateAccessList keyid now' m.lastAccessList).2 now' last := by
    refine h.narrow hnow (hspec.sublist.nodup h.unique)
      (fun entry hmem hkey => hspec.others entry hmem (hother entry hkey))
      fun t ht entry hmem hkey =>
        (hspec.kept entry hmem (hother entry hkey)).imp id fun hexpired => ?_
    -- the entry is dropped, so that its timeout has passed
    have hpast := (h.past entry hmem hkey).trans hnow
    have hrecent := h.recent t ht entry hmem hkey
    rw [h.timeout entry hmem hkey] at hexpired
    omega
  unfold updateKeyAccessTime
  generalize updateAccessList keyid now' m.lastAccessList = result at hspec hlist
  obtain ⟨found, list⟩ := result
  cases found with
  | true => exact hlist
  | false =>
    dsimp only
    split
    · exact hlist
    · refine hlist.narrow le_rfl (nodup_cons.mpr ⟨fun hmem => ?_, hlist.unique⟩)
        (fun entry hmem hkey => ?_) fun _ _ _ hmem _ => .inl (.tail _ hmem)
      · obtain ⟨entry, hentry, hkey⟩ := mem_map.mp (hspec.sublist.subset hmem)
        exact hspec.missing rfl entry hentry hkey
      · rcases mem_cons.mp hmem with rfl | hrest
        · exact absurd hkey hne
        · exact hrest

/-- The key itself is used, or the table is full. -/
lemma Timed.update_own (hnow : now ≤ now')
    {ok : Bool} {m' : AccessTimeMap} (hupdate : m.updateKeyAccessTime k now' n = (ok, m')) :
    Timed k n m'.lastAccessList now' (if ok then some now' else last) := by
  have hspec := updateAccessList_spec k now' m.lastAccessList
  unfold updateKeyAccessTime at hupdate
  generalize updateAccessList k now' m.lastAccessList = result at hspec hupdate
  obtain ⟨found, list⟩ := result
  have hunique : (list.map keyid).Nodup := hspec.sublist.nodup h.unique
  cases found with
  | true =>
    cases hupdate
    obtain ⟨own, hmem, rfl, rfl, old, hold, holdkey, htimeout⟩ := hspec.found rfl
    rw [← h.timeout old hold holdkey, ← htimeout]
    exact .fresh hunique hmem
  | false =>
    have hnone : k ∉ list.map keyid := fun hmem => by
      obtain ⟨old, hold, holdkey⟩ := mem_map.mp (hspec.sublist.subset hmem)
      exact hspec.missing rfl old hold holdkey
    dsimp only at hupdate
    split at hupdate
    · cases hupdate
      exact h.narrow hnow hunique
        (fun entry hentry hk => absurd (hk ▸ mem_map_of_mem hentry) hnone)
        fun t ht entry hentry hk => absurd hk (hspec.missing rfl entry hentry)
    · cases hupdate
      have hnodup : ((⟨k, now', n⟩ :: list).map keyid).Nodup :=
        nodup_cons.mpr ⟨hnone, hunique⟩
      exact Timed.fresh hnodup mem_cons_self

end Times

/-! ## The table of access counts -/

open AccessCountMap Enforcement

section Counts

variable {k m c : Nat}

/-- What the loop of `IncrementKeyAccessCount` does to the list. -/
structure Incremented (keyid : Nat) (list list' : List AccessCount) : Prop where
  keys : list'.map AccessCount.keyid = list.map AccessCount.keyid
  others : ∀ entry, entry.keyid ≠ keyid → (entry ∈ list' ↔ entry ∈ list)
  own : ∃ old ∈ list, old.keyid = keyid ∧ ∃ entry ∈ list', entry.keyid = keyid ∧ entry.accessCount =
      if old.accessCount < 2 ^ 64 - 1 then old.accessCount + 1 else old.accessCount

lemma incrementAccessList_spec (keyid : Nat) (list : List AccessCount) :
    match incrementAccessList keyid list with
    | some list' => Incremented keyid list list'
    | none => ∀ entry ∈ list, entry.keyid ≠ keyid := by
  induction list with
  | nil => exact nofun
  | cons entry rest ih =>
    unfold incrementAccessList
    by_cases hkey : entry.keyid = keyid
    · rw [if_pos hkey]
      refine ⟨rfl, fun other hne => ?_, entry, mem_cons_self, hkey, _, mem_cons_self, hkey, rfl⟩
      rw [mem_cons, mem_cons]
      refine or_congr_left ⟨fun heq => ?_, fun heq => ?_⟩
      · rw [heq] at hne
        exact absurd hkey hne
      · rw [heq] at hne
        exact absurd hkey hne
    · rw [if_neg hkey]
      cases hrest : incrementAccessList keyid rest with
      | none =>
        rw [hrest] at ih
        exact forall_mem_cons.mpr ⟨hkey, ih⟩
      | some list' =>
        rw [hrest] at ih
        obtain ⟨old, hold, holdkey, new, hnew, hnewkey, hcount⟩ := ih.own
        refine ⟨congrArg (entry.keyid :: ·) ih.keys, fun other hne => ?_, old,
          .tail _ hold, holdkey, new, .tail _ hnew, hnewkey, hcount⟩
        rw [mem_cons, mem_cons, ih.others other hne]

/-- What the table says about a key that may be used `m` times and has been used `c` times. -/
structure Counted (k m : Nat) (list : List AccessCount) (c : Nat) : Prop where
  unique : (list.map AccessCount.keyid).Nodup
  count : ∀ entry ∈ list, entry.keyid = k → c ≤ entry.accessCount ∧ entry.accessCount ≤ m
  kept : c = 0 ∨ ∃ entry ∈ list, entry.keyid = k

lemma Counted.le {list : List AccessCount} (h : Counted k m list c) : c ≤ m := by
  rcases h.kept with hzero | ⟨entry, hmem, hkey⟩
  · omega
  · exact (h.count entry hmem hkey).1.trans (h.count entry hmem hkey).2

/-- Another key is used. -/
lemma Counted.increment_other {t : AccessCountMap} (h : Counted k m t.accessCountList c)
    {keyid : Nat} (hne : keyid ≠ k) :
    Counted k m (t.incrementKeyAccessCount keyid).2.accessCountList c := by
  have hspec := incrementAccessList_spec keyid t.accessCountList
  unfold incrementKeyAccessCount
  cases hincrement : incrementAccessList keyid t.accessCountList with
  | some list =>
    rw [hincrement] at hspec
    have hsame : ∀ entry : AccessCount, entry.keyid = k →
        (entry ∈ list ↔ entry ∈ t.accessCountList) := fun entry hkey =>
      hspec.others entry fun heq => hne (heq.symm.trans hkey)
    refine ⟨?_, fun entry hmem hkey => h.count entry ((hsame entry hkey).mp hmem) hkey,
      h.kept.imp id fun ⟨entry, hmem, hkey⟩ => ⟨entry, (hsame entry hkey).mpr hmem, hkey⟩⟩
    rw [hspec.keys]
    exact h.unique
  | none =>
    rw [hincrement] at hspec
    dsimp only
    split
    · exact h
    · refine ⟨nodup_cons.mpr ⟨fun hmem => ?_, h.unique⟩, fun entry hmem hkey => ?_,
        h.kept.imp id fun ⟨entry, hmem, hkey⟩ => ⟨entry, .tail _ hmem, hkey⟩⟩
      · obtain ⟨entry, hentry, hkey⟩ := mem_map.mp hmem
        exact hspec entry hentry hkey
      · rcases mem_cons.mp hmem with rfl | hrest
        · exact absurd hkey hne
        · exact h.count entry hrest hkey

/-- The key itself is used once more, if the table has room for it. -/
lemma Counted.increment_own {t t' : AccessCountMap} (h : Counted k m t.accessCountList c)
    (hm : m < 2 ^ 32) (hpos : 0 < m)
    (hcheck : ∀ count, t.keyAccessCount k = some count → count < m)
    (hincrement : t.incrementKeyAccessCount k = (true, t')) :
    Counted k m t'.accessCountList (c + 1) := by
  have hspec := incrementAccessList_spec k t.accessCountList
  unfold incrementKeyAccessCount at hincrement
  cases hlist : incrementAccessList k t.accessCountList with
  | some list =>
    rw [hlist] at hspec hincrement
    cases hincrement
    have hunique : (list.map AccessCount.keyid).Nodup := by
      rw [hspec.keys]
      exact h.unique
    obtain ⟨old, hold, holdkey, new, hnew, hnewkey, hcount⟩ := hspec.own
    have hbound := h.count old hold holdkey
    -- the entry that the check has read is the only one of the key
    have hlt : old.accessCount % 2 ^ 32 < m := by
      refine hcheck _ ?_
      unfold keyAccessCount
      cases hfind : t.accessCountList.find? fun entry => entry.keyid == k with
      | none =>
        have hnone := List.find?_eq_none.mp hfind old hold
        simp [holdkey] at hnone
      | some first =>
        have hfirst : first.keyid = k := by simpa using List.find?_some hfind
        have hsame := inj_on_of_nodup_map h.unique (mem_of_find?_eq_some hfind) hold
          (hfirst.trans holdkey.symm)
        rw [hsame]
        rfl
    refine ⟨hunique, fun entry hmem hkey => ?_, .inr ⟨new, hnew, hnewkey⟩⟩
    have hsame := inj_on_of_nodup_map hunique hmem hnew (hkey.trans hnewkey.symm)
    rw [hsame, hcount]
    split <;> omega
  | none =>
    rw [hlist] at hspec hincrement
    dsimp only at hincrement
    split at hincrement
    · cases hincrement
    · cases hincrement
      have hzero : c = 0 := h.kept.resolve_right fun ⟨entry, hmem, hkey⟩ => hspec entry hmem hkey
      refine ⟨nodup_cons.mpr ⟨fun hmem => ?_, h.unique⟩, fun entry hmem hkey => ?_,
        .inr ⟨_, mem_cons_self, rfl⟩⟩
      · obtain ⟨entry, hentry, hkey⟩ := mem_map.mp hmem
        exact hspec entry hentry hkey
      · rcases mem_cons.mp hmem with rfl | hrest
        · subst hzero
          exact ⟨le_refl 1, hpos⟩
        · exact absurd hkey (hspec entry hrest)

end Counts

/-! ## What a begin checks and records -/

/-- The key has exactly one authorization with this tag, of this value. -/
def AuthorizationSet.carriesOne (set : AuthorizationSet) (tag : Tag) (value : Nat) : Prop :=
  ∃ param, (set.filter fun p => p.tag == tag) = [param] ∧ param.integer = value

instance (set : AuthorizationSet) (tag : Tag) (value : Nat) :
    Decidable (set.carriesOne tag value) :=
  decidable_of_iff ((set.filter fun p => p.tag == tag).map KeyParam.integer = [value]) <| by
    unfold AuthorizationSet.carriesOne
    rw [List.map_eq_singleton_iff]

lemma AuthorizationSet.carriesOne.mem {set : AuthorizationSet} {tag : Tag} {value : Nat}
    (h : set.carriesOne tag value) : ∃ param ∈ set, param.tag = tag ∧ param.integer = value := by
  obtain ⟨param, hfilter, hvalue⟩ := h
  have hmem : param ∈ set.filter fun p => p.tag == tag := hfilter ▸ mem_singleton_self param
  obtain ⟨hset, htag⟩ := mem_filter.mp hmem
  exact ⟨param, hset, beq_iff_eq.mp htag, hvalue⟩

namespace Enforcement

section Scans

variable {e : Enforcement} {ctx : Context} {keyid pos : Nat}
  {authSet operationParams : AuthorizationSet} {params : List KeyParam} {acc acc' : Scan}

section

variable (h : Scanned e ctx keyid authSet operationParams pos params acc acc')

include h

/-- The last limit of the rate is the one that is recorded. -/
lemma Scanned.minOpsTimeout :
    acc'.minOpsTimeout = ((params.filter fun p => p.tag == .minSecondsBetweenOps).getLast?.map
      KeyParam.integer).getD acc.minOpsTimeout := by
  induction h with
  | done => rfl
  | @next _ param rest acc acc1 _ checked _ ih =>
    rw [ih, checked.minOpsTimeout]
    by_cases htag : param.tag = .minSecondsBetweenOps
    · rw [if_pos htag, filter_cons_of_pos (by rw [htag]; rfl), List.getLast?_cons]
      cases (rest.filter fun p => p.tag == .minSecondsBetweenOps).getLast? <;> rfl
    · rw [if_neg htag, filter_cons_of_neg (by simpa using htag)]

lemma Scanned.updateAccessCount :
    acc'.updateAccessCount =
      (acc.updateAccessCount || params.any fun p => p.tag == .maxUsesPerBoot) := by
  induction h with
  | done => rw [any_nil, Bool.or_false]
  | next checked _ ih => rw [ih, checked.updateAccessCount, any_cons, Bool.or_assoc]

end

lemma Scanned.minOpsTimeout_of_carriesOne {n : Nat}
    (h : Scanned e ctx keyid authSet operationParams 0 authSet {} acc')
    (hone : authSet.carriesOne .minSecondsBetweenOps n) : acc'.minOpsTimeout = n := by
  obtain ⟨param, hfilter, hvalue⟩ := hone
  rw [h.minOpsTimeout, hfilter]
  exact hvalue

end Scans

section Records

variable {e e' : Enforcement} {keyid : Nat}

lemma recordTime_count (t n : Nat) :
    (e.recordTime keyid t n).2.accessCountMap = e.accessCountMap := by
  unfold recordTime
  split
  · split
    · rfl
    · split <;> rfl
  · rfl

lemma recordCount_time (b : Bool) : (e.recordCount keyid b).2.accessTimeMap = e.accessTimeMap := by
  unfold recordCount
  split
  · split
    · rfl
    · split <;> rfl
  · rfl

/-- The table of access times after a begin. -/
lemma recordTime_spec {t n : Nat} {error : Error} (hn : n ≠ uint32Max)
    (h : e.recordTime keyid t n = (error, e')) :
    (e.accessTimeMap = none ∧ e'.accessTimeMap = none ∧ error ≠ .ok) ∨
      ∃ m ok m', e.accessTimeMap = some m ∧ m.updateKeyAccessTime keyid t n = (ok, m') ∧
        e'.accessTimeMap = some m' ∧ (error = .ok ↔ ok) := by
  unfold recordTime at h
  rw [if_pos hn] at h
  cases hmap : e.accessTimeMap with
  | none =>
    rw [hmap] at h
    cases h
    exact .inl ⟨rfl, hmap, nofun⟩
  | some m =>
    rw [hmap] at h
    dsimp only at h
    rcases hupdate : m.updateKeyAccessTime keyid t n with ⟨ok, m'⟩
    rw [hupdate] at h
    cases ok with
    | true | false =>
      cases h
      exact .inr ⟨m, _, m', rfl, hupdate, rfl, by simp⟩

/-- The table of access counts after the use of a key that is counted. -/
lemma recordCount_spec {error : Error} (h : e.recordCount keyid true = (error, e')) :
    (e.accessCountMap = none ∧ e'.accessCountMap = none ∧ error ≠ .ok) ∨
      ∃ m ok m', e.accessCountMap = some m ∧ m.incrementKeyAccessCount keyid = (ok, m') ∧
        e'.accessCountMap = some m' ∧ (error = .ok ↔ ok) := by
  unfold recordCount at h
  cases hmap : e.accessCountMap with
  | none =>
    rw [hmap] at h
    cases h
    exact .inl ⟨rfl, hmap, nofun⟩
  | some m =>
    rw [hmap] at h
    dsimp only at h
    rcases hupdate : m.incrementKeyAccessCount keyid with ⟨ok, m'⟩
    rw [hupdate] at h
    cases ok with
    | true | false =>
      cases h
      exact .inr ⟨m, _, m', rfl, hupdate, rfl, by simp⟩

end Records

end Enforcement

/-! ## Runs -/

/-- A request to begin an operation with a key. -/
structure Begin where
  keyid : Nat
  purpose : Purpose
  ctx : Context
  operationParams : AuthorizationSet

namespace Begin

variable (auth : Nat → AuthorizationSet)

/-- The request is decided; `auth` are the authorizations of the keys. -/
def run (e : Enforcement) (b : Begin) : Error × Enforcement :=
  e.authorizeOperation b.ctx b.purpose b.keyid (auth b.keyid) b.operationParams 0 true

/-- The request is one for an operation with the key `k` other than with its public key, and is
authorized. -/
def succeeds (k : Nat) (e : Enforcement) (b : Begin) : Bool :=
  b.keyid == k && !Enforcement.isPublicKeyOperation b.purpose (auth k) && (b.run auth e).1 == .ok

end Begin

/-- The operations with the key `k` that a run has authorized. -/
def successes (auth : Nat → AuthorizationSet) (k : Nat) : Enforcement → List Begin → List Begin
  | _, [] => []
  | e, b :: bs =>
    if b.succeeds auth k e then b :: successes auth k (b.run auth e).2 bs
    else successes auth k (b.run auth e).2 bs

/-- The 32-bit clock does not go back. -/
def ClockRuns : Nat → List Begin → Prop
  | _, [] => True
  | now, b :: bs => (∀ pos, now ≤ b.ctx.checkTime pos ∧ b.ctx.checkTime pos ≤ b.ctx.updateTime) ∧
    b.ctx.updateTime < 2 ^ 32 ∧ ClockRuns b.ctx.updateTime bs

/-- The enforcement at boot, with the sizes of the tables that could be allocated. -/
def fresh (timeSize countSize : Option Nat) : Enforcement where
  accessTimeMap := timeSize.map fun size => ⟨size, []⟩
  accessCountMap := countSize.map fun size => ⟨size, []⟩

variable {auth : Nat → AuthorizationSet} {k n now m c : Nat} {e e' : Enforcement} {b : Begin}
  {error : Error} {last : Option Nat} {list : List AccessTime} {t : AccessCountMap}
  {bs : List Begin}

section

variable (h : b.run auth e = (error, e'))

include h

lemma run_cases :
    ((isPublicKeyOperation b.purpose (auth b.keyid) ∨ error ≠ .ok) ∧ e' = e) ∨
      isPublicKeyOperation b.purpose (auth b.keyid) = false ∧
        ∃ acc, Enforcement.Scanned e b.ctx b.keyid (auth b.keyid) b.operationParams 0 (auth b.keyid)
          {} acc ∧
        ∃ error1 e1, e.recordTime b.keyid b.ctx.updateTime acc.minOpsTimeout = (error1, e1) ∧
          ((error1 ≠ .ok ∧ error = error1 ∧ e' = e1) ∨
            (error1 = .ok ∧ e1.recordCount b.keyid acc.updateAccessCount = (error, e'))) := by
  unfold Begin.run authorizeOperation at h
  by_cases hpublic : isPublicKeyOperation b.purpose (auth b.keyid)
  · rw [if_pos hpublic] at h
    cases h
    exact .inl ⟨.inl hpublic, rfl⟩
  · rw [if_neg hpublic] at h
    rcases authorizeBegin_cases h with ⟨hne, hsame⟩ | ⟨acc, hscan, -, hrest⟩
    · exact .inl ⟨.inr hne, hsame⟩
    · exact .inr ⟨eq_false_of_ne_true hpublic, acc, hscan, hrest⟩

lemma succeeds_iff : b.succeeds auth k e ↔
    b.keyid = k ∧ isPublicKeyOperation b.purpose (auth k) = false ∧ error = .ok := by
  unfold Begin.succeeds
  rw [h]
  simp [and_assoc]

lemma not_succeeds
    (hnot : isPublicKeyOperation b.purpose (auth b.keyid) ∨ error ≠ .ok) :
    b.succeeds auth k e = false := by
  refine eq_false_of_ne_true fun hsuccess => ?_
  obtain ⟨rfl, hpublic, hok⟩ := (succeeds_iff h).mp hsuccess
  rcases hnot with hnot | hnot
  · exact Bool.noConfusion (hpublic.symm.trans hnot)
  · exact hnot hok

end

/-- `Timed`, for a table that may not have been allocated. -/
def TimedMap (k n : Nat) (map : Option AccessTimeMap) (now : Nat) (last : Option Nat) : Prop :=
  ∀ m, map = some m → Timed k n m.lastAccessList now last

lemma Timed.last_le (h : Timed k n list now last) {t : Nat} (ht : last = some t) : t ≤ now := by
  rcases h.kept t ht with ⟨entry, hmem, hkey⟩ | hpassed
  · exact (h.recent t ht entry hmem hkey).trans (h.past entry hmem hkey)
  · exact Nat.le_of_add_right_le hpassed

/-- A later use implies what an earlier one does. -/
lemma Timed.earlier {t' : Nat}
    (h : Timed k n list now (some t')) (hle : ∀ t, last = some t → t ≤ t') :
    Timed k n list now last where
  unique := h.unique
  timeout := h.timeout
  past := h.past
  recent t ht entry hmem hkey := (hle t ht).trans (h.recent t' rfl entry hmem hkey)
  kept t ht := (h.kept t' rfl).imp id fun hpassed =>
    (Nat.add_le_add_right (hle t ht) n).trans hpassed

/-- The check of the rate, against the last use. -/
lemma Timed.passed {m : AccessTimeMap}
    (h : Timed k n m.lastAccessList now last) (hmap : e.accessTimeMap = some m) {time : Nat}
    (hnow : now ≤ time) (hcheck : e.minTimeBetweenOpsPassed time n k) {t : Nat}
    (ht : last = some t) : t + n ≤ time := by
  unfold minTimeBetweenOpsPassed at hcheck
  rw [hmap] at hcheck
  unfold AccessTimeMap.lastKeyAccessTime at hcheck
  dsimp only at hcheck
  cases hfind : m.lastAccessList.find? fun entry => entry.keyid == k with
  | none =>
    rcases h.kept t ht with ⟨entry, hmem, hkey⟩ | hpassed
    · have hnone := List.find?_eq_none.mp hfind entry hmem
      simp [hkey] at hnone
    · exact hpassed.trans hnow
  | some entry =>
    have hkey : entry.keyid = k := by simpa using List.find?_some hfind
    have hrecent := h.recent t ht entry (mem_of_find?_eq_some hfind) hkey
    rw [hfind] at hcheck
    have hle : (n : Int) ≤ (time : Int) - entry.accessTime := of_decide_eq_true hcheck
    omega

/-- One request, in the table of access times. -/
lemma run_timed (hone : (auth k).carriesOne .minSecondsBetweenOps n) (hn : n ≠ uint32Max)
    (h : TimedMap k n e.accessTimeMap now last)
    (hclock : ∀ pos, now ≤ b.ctx.checkTime pos ∧ b.ctx.checkTime pos ≤ b.ctx.updateTime)
    (hlt : b.ctx.updateTime < 2 ^ 32) (hrun : b.run auth e = (error, e')) :
    TimedMap k n e'.accessTimeMap b.ctx.updateTime
        (if b.succeeds auth k e then some b.ctx.updateTime else last) ∧
      (b.succeeds auth k e → ∀ t, last = some t → t + n ≤ b.ctx.updateTime) := by
  have hnow : now ≤ b.ctx.updateTime := (hclock 0).1.trans (hclock 0).2
  rcases run_cases hrun with ⟨hnot, rfl⟩ | ⟨-, acc, hscan, error1, e1, htime, hrest⟩
  · rw [not_succeeds hrun hnot]
    exact ⟨fun m hm => (h m hm).later hnow, nofun⟩
  · have hmap : e'.accessTimeMap = e1.accessTimeMap := by
      rcases hrest with ⟨-, -, rfl⟩ | ⟨-, hcount⟩
      · rfl
      · have hframe : (e1.recordCount b.keyid acc.updateAccessCount).2.accessTimeMap =
            e1.accessTimeMap := recordCount_time acc.updateAccessCount
        rw [hcount] at hframe
        exact hframe
    rw [hmap]
    by_cases hkey : b.keyid = k
    · subst hkey
      rw [hscan.minOpsTimeout_of_carriesOne hone] at htime
      rcases recordTime_spec hn htime with
        ⟨-, hnone, hne⟩ | ⟨m, ok, m', hm, hupdate, hm', hiff⟩
      · have herror : error ≠ .ok := by
          rcases hrest with ⟨-, rfl, -⟩ | ⟨hok, -⟩
          · exact hne
          · exact absurd hok hne
        rw [not_succeeds hrun (.inr herror)]
        refine ⟨fun m hm => ?_, nofun⟩
        rw [hnone] at hm
        cases hm
      · have hafter := (h m hm).update_own hnow hupdate
        refine ⟨fun m2 hm2 => ?_, fun _ t ht => ?_⟩
        · rw [hm'] at hm2
          cases hm2
          cases hsuccess : b.succeeds auth b.keyid e with
          | false =>
            -- the use may be recorded although the table of counts is full
            cases ok with
            | false => exact hafter
            | true => exact hafter.earlier fun t ht => ((h m hm).last_le ht).trans hnow
          | true =>
            obtain ⟨-, -, rfl⟩ := (succeeds_iff hrun).mp hsuccess
            have hok : error1 = .ok := by
              rcases hrest with ⟨hne, heq, -⟩ | ⟨hok, -⟩
              · exact heq.symm
              · exact hok
            rw [hiff.mp hok] at hafter
            exact hafter
        · obtain ⟨param, hmem, htag, hvalue⟩ := hone.mem
          obtain ⟨pos, _, _, checked⟩ := hscan.checked hmem
          have hpassed := checked.minTime htag
          rw [hvalue] at hpassed
          exact ((h m hm).passed hm (hclock pos).1 hpassed ht).trans (hclock pos).2
    · have hfalse : b.succeeds auth k e = false :=
        eq_false_of_ne_true fun hsuccess => hkey ((succeeds_iff hrun).mp hsuccess).1
      rw [hfalse]
      refine ⟨fun m' hm' => ?_, nofun⟩
      by_cases hmax : acc.minOpsTimeout = uint32Max
      · unfold recordTime at htime
        rw [if_neg (not_not.mpr hmax)] at htime
        cases htime
        exact (h m' hm').later hnow
      · rcases recordTime_spec hmax htime with
          ⟨-, hnone, -⟩ | ⟨m, ok, m1, hm, hupdate, hm1, -⟩
        · rw [hnone] at hm'
          cases hm'
        · rw [hm1] at hm'
          cases hm'
          have hafter := (h m hm).update_other hnow hlt hkey acc.minOpsTimeout
          rw [hupdate] at hafter
          exact hafter

/-- `Counted`, for a table that may not have been allocated. -/
def CountedMap (k m : Nat) (map : Option AccessCountMap) (c : Nat) : Prop :=
  c ≤ m ∧ ∀ t, map = some t → Counted k m t.accessCountList c

/-- The check of the number of uses. -/
lemma count_lt (hmap : e.accessCountMap = some t)
    (hcheck : e.maxUsesPerBootNotExceeded k m) {count : Nat}
    (hcount : t.keyAccessCount k = some count) : count < m := by
  unfold maxUsesPerBootNotExceeded at hcheck
  rw [hmap] at hcheck
  dsimp only at hcheck
  rw [hcount] at hcheck
  exact of_decide_eq_true hcheck

/-- A full table stays as it is. -/
lemma increment_full {t' : AccessCountMap} {keyid : Nat}
    (h : t.incrementKeyAccessCount keyid = (false, t')) : t' = t := by
  unfold incrementKeyAccessCount at h
  split at h
  · cases h
  · split at h
    · cases h
      rfl
    · cases h

/-- One request, in the table of access counts. -/
lemma run_counted (hone : (auth k).carriesOne .maxUsesPerBoot m) (hm : m < 2 ^ 32)
    (hpos : 0 < m) (h : CountedMap k m e.accessCountMap c) (hrun : b.run auth e = (error, e')) :
    CountedMap k m e'.accessCountMap (c + if b.succeeds auth k e then 1 else 0) := by
  rcases run_cases hrun with ⟨hnot, rfl⟩ | ⟨hprivate, acc, hscan, error1, e1, htime, hrest⟩
  · rw [not_succeeds hrun hnot]
    exact h
  · have hmap : e1.accessCountMap = e.accessCountMap := by
      have hframe : (e.recordTime b.keyid b.ctx.updateTime acc.minOpsTimeout).2.accessCountMap =
          e.accessCountMap := recordTime_count _ _
      rw [htime] at hframe
      exact hframe
    rcases hrest with ⟨hne, rfl, rfl⟩ | ⟨-, hcount⟩
    · rw [not_succeeds hrun (.inr hne), hmap]
      exact h
    by_cases hkey : b.keyid = k
    · subst hkey
      obtain ⟨param, hmem, htag, hvalue⟩ := hone.mem
      have hupdate : acc.updateAccessCount := by
        rw [hscan.updateAccessCount]
        exact any_eq_true.mpr ⟨param, hmem, by rw [htag]; rfl⟩
      obtain ⟨_, _, _, checked⟩ := hscan.checked hmem
      have hcheck := checked.maxUses htag
      rw [hvalue] at hcheck
      rw [hupdate] at hcount
      rcases recordCount_spec hcount with
        ⟨-, hnone, hne⟩ | ⟨t, ok, t', ht, hincrement, ht', hiff⟩
      · rw [not_succeeds hrun (.inr hne), hnone]
        exact ⟨h.1, nofun⟩
      · rw [hmap] at ht
        rw [ht']
        cases ok with
        | false =>
          have hne : error ≠ .ok := fun hok => Bool.noConfusion (hiff.mp hok)
          rw [not_succeeds hrun (.inr hne), increment_full hincrement, ← ht]
          exact h
        | true =>
          have hcounted := (h.2 t ht).increment_own hm hpos
            (fun _ hcount => count_lt ht hcheck hcount) hincrement
          rw [if_pos ((succeeds_iff hrun).mpr ⟨rfl, hprivate, hiff.mpr rfl⟩)]
          refine ⟨hcounted.le, fun t2 ht2 => ?_⟩
          cases ht2
          exact hcounted
    · have hfalse : b.succeeds auth k e = false :=
        eq_false_of_ne_true fun hsuccess => hkey ((succeeds_iff hrun).mp hsuccess).1
      rw [hfalse]
      cases hupdate : acc.updateAccessCount with
      | false =>
        rw [hupdate] at hcount
        cases hcount
        rw [hmap]
        exact h
      | true =>
        rw [hupdate] at hcount
        refine ⟨h.1, fun t2 ht2 => ?_⟩
        rcases recordCount_spec hcount with
          ⟨-, hnone, -⟩ | ⟨t, ok, t', ht, hincrement, ht', -⟩
        · rw [hnone] at ht2
          cases ht2
        · rw [ht'] at ht2
          cases ht2
          rw [hmap] at ht
          have hcounted := (h.2 t ht).increment_other hkey
          rw [hincrement] at hcounted
          exact hcounted

lemma successes_timed (hone : (auth k).carriesOne .minSecondsBetweenOps n) (hn : n ≠ uint32Max)
    (h : TimedMap k n e.accessTimeMap now last) (hclock : ClockRuns now bs) :
    (successes auth k e bs).Pairwise (fun b b' => b.ctx.updateTime + n ≤ b'.ctx.updateTime) ∧
      ∀ t, last = some t → ∀ b ∈ successes auth k e bs, t + n ≤ b.ctx.updateTime := by
  induction bs generalizing e now last with
  | nil => exact ⟨.nil, nofun⟩
  | cons b bs ih =>
    obtain ⟨hreadings, hlt, hrest⟩ := hclock
    have hrun : b.run auth e = ((b.run auth e).1, (b.run auth e).2) := rfl
    obtain ⟨hafter, hapart⟩ := run_timed hone hn h hreadings hlt hrun
    obtain ⟨hpairs, hlater⟩ := ih hafter hrest
    unfold successes
    by_cases hsuccess : b.succeeds auth k e
    · rw [if_pos hsuccess] at hlater ⊢
      refine ⟨pairwise_cons.mpr ⟨fun b' hb' => hlater _ rfl b' hb', hpairs⟩, fun t ht => ?_⟩
      refine forall_mem_cons.mpr ⟨hapart hsuccess t ht, fun b' hb' => ?_⟩
      have hfirst := hapart hsuccess t ht
      have hsecond := hlater _ rfl b' hb'
      omega
    · rw [if_neg hsuccess] at hlater ⊢
      exact ⟨hpairs, hlater⟩

lemma successes_counted (hone : (auth k).carriesOne .maxUsesPerBoot m)
    (hm : m < 2 ^ 32) (hpos : 0 < m)
    (h : CountedMap k m e.accessCountMap c) : c + (successes auth k e bs).length ≤ m := by
  induction bs generalizing e c with
  | nil => exact h.1
  | cons b bs ih =>
    have hrun : b.run auth e = ((b.run auth e).1, (b.run auth e).2) := rfl
    have hlength := ih (run_counted hone hm hpos h hrun)
    unfold successes
    split
    · next hsuccess =>
      rw [if_pos hsuccess] at hlength
      rw [length_cons]
      omega
    · next hsuccess =>
      rw [if_neg hsuccess] at hlength
      exact hlength

/-- **The limits of a key hold.**  However the requests for all keys are interleaved, the
operations with a key that says so are at least `n` seconds apart, and at most `m` of them are
authorized until the next boot. -/
theorem usage_limits (auth : Nat → AuthorizationSet) (timeSize countSize : Option Nat)
    (bs : List Begin) (hclock : ClockRuns 0 bs) (k : Nat) :
    (∀ n, (auth k).carriesOne .minSecondsBetweenOps n → n < uint32Max →
      (successes auth k (fresh timeSize countSize) bs).Pairwise fun b b' =>
        b.ctx.updateTime + n ≤ b'.ctx.updateTime) ∧
      ∀ m, (auth k).carriesOne .maxUsesPerBoot m → 0 < m → m ≤ uint32Max →
        (successes auth k (fresh timeSize countSize) bs).length ≤ m := by
  refine ⟨fun n hone hn => ?_, fun m hone hpos hm => ?_⟩
  · have hfresh : TimedMap k n (fresh timeSize countSize).accessTimeMap 0 none := by
      intro map hmap
      obtain ⟨size, -, rfl⟩ := Option.map_eq_some_iff.mp hmap
      exact ⟨nodup_nil, nofun, nofun, nofun, nofun⟩
    exact (successes_timed hone hn.ne hfresh hclock).1
  · have hfresh : CountedMap k m (fresh timeSize countSize).accessCountMap 0 := by
      refine ⟨Nat.zero_le m, fun map hmap => ?_⟩
      obtain ⟨size, -, rfl⟩ := Option.map_eq_some_iff.mp hmap
      exact ⟨nodup_nil, nofun, .inl rfl⟩
    have hlength : 0 + (successes auth k (fresh timeSize countSize) bs).length ≤ m :=
      successes_counted hone (hm.trans_lt (by decide)) hpos hfresh
    omega

/-- Key 1 may be used once a minute, key 2 twice. -/
def sampleAuth (k : Nat) : AuthorizationSet :=
  if k = 1 then [{ tag := .purpose, integer := 0 }, { tag := .minSecondsBetweenOps, integer := 60 }]
  else [{ tag := .purpose, integer := 0 }, { tag := .maxUsesPerBoot, integer := 2 }]

/-- A request to encrypt with a key at a time. -/
def sampleBegin (k time : Nat) : Begin where
  keyid := k
  purpose := .encrypt
  ctx := { Enforcement.sampleContext with checkTime := fun _ => time, updateTime := time }
  operationParams := []

theorem usage_limits_sampleAuth :
    let bs := [sampleBegin 1 100, sampleBegin 2 110, sampleBegin 1 120, sampleBegin 2 130,
      sampleBegin 1 160, sampleBegin 2 170]
    let successesOf := fun k => successes sampleAuth k (fresh (some 1) (some 1)) bs
    ((successesOf 1).map (·.ctx.updateTime) = [100, 160] ∧ (successesOf 2).length = 2) ∧
      (successesOf 1).Pairwise (fun b b' => b.ctx.updateTime + 60 ≤ b'.ctx.updateTime) ∧
      (successesOf 2).length ≤ 2 := by
  have hclock : ClockRuns 0 [sampleBegin 1 100, sampleBegin 2 110, sampleBegin 1 120,
      sampleBegin 2 130, sampleBegin 1 160, sampleBegin 2 170] := by
    simp [ClockRuns, sampleBegin]
  exact ⟨by decide,
    (usage_limits sampleAuth (some 1) (some 1) _ hclock 1).1 60 (by decide) (by decide),
    (usage_limits sampleAuth (some 1) (some 1) _ hclock 2).2 2 (by decide) (by decide) (by decide)⟩

/-- The largest number of seconds is taken for no limit at all, and a key that must not be used
is used once. -/
theorem limits_ignored :
    let auth : Nat → AuthorizationSet := fun k =>
      if k = 1 then
        [{ tag := .purpose, integer := 0 }, { tag := .minSecondsBetweenOps, integer := uint32Max }]
      else [{ tag := .purpose, integer := 0 }, { tag := .maxUsesPerBoot, integer := 0 }]
    let bs := [sampleBegin 1 100, sampleBegin 1 101, sampleBegin 2 102]
    ((auth 1).carriesOne .minSecondsBetweenOps uint32Max ∧
        (successes auth 1 (fresh (some 1) (some 1)) bs).map (·.ctx.updateTime) = [100, 101]) ∧
      (auth 2).carriesOne .maxUsesPerBoot 0 ∧
      (successes auth 2 (fresh (some 1) (some 1)) bs).length = 1 := by
  decide

end Keymaster
