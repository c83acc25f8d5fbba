import AlpsSystem.Chre.SensorRequestManager

/-!
# Whom a merged sensor request serves

The sensor request manager asks the platform for the merge of the requests of all clients.  Does
this request serve each client, whatever the order in which the clients came?

* `mergeAll_serves_iff` — which lists of requests are served in any order.  A latency without an
  interval is lost in the others.
-/

namespace Chre

open List

namespace SensorRequest

open RequestMultiplexer (mergeAll)

/-- A request for samples, as the constructor builds it from 64-bit numbers. -/
def Built (r : SensorRequest) : Prop :=
  ∃ nanoapp mode interval latency, mode ≠ .off ∧ interval ≤ defaultNs ∧ latency ≤ defaultNs ∧
    r = create nanoapp mode interval latency

/-- The request `merged` is good enough for the client that asked for `r`. -/
structure Serves (merged r : SensorRequest) : Prop where
  interval : merged.interval ≤ r.interval
  latency : r.latency ≠ defaultNs → r.interval = defaultNs → merged.latency ≤ r.latency
  batch : r.latency ≠ defaultNs → r.interval ≠ defaultNs →
    merged.interval + merged.latency ≤ r.interval + r.latency

/-- Wherever a latency comes without an interval, some client asks for its samples as early as that
latency after any interval of the list. -/
def Covered (rs : List SensorRequest) : Prop :=
  ∀ l ∈ rs, l.interval = defaultNs → l.latency ≠ defaultNs → ∀ r ∈ rs, r.interval ≠ defaultNs →
    ∃ c ∈ rs, c.getBatchInterval ≤ r.interval + l.latency

/-- The clients ask for one interval or for one latency, and none for both. -/
def Uniform (rs : List SensorRequest) : Prop :=
  ∃ interval latency, ∀ r ∈ rs, (r.interval = interval ∨ r.interval = defaultNs) ∧
    (r.latency = latency ∨ r.latency = defaultNs) ∧
    (r.interval = defaultNs ∨ r.latency = defaultNs)

/-! ## One merge -/

/-- The numbers of a request that was built or merged: the sum of an interval and a latency is
below the default. -/
structure Capped (r : SensorRequest) : Prop where
  interval : r.interval = defaultNs ∨ r.interval ≤ kMaxIntervalLatencyNs
  latency : r.latency ≤ defaultNs
  alone : r.interval = defaultNs → r.latency = defaultNs ∨ r.latency ≤ kMaxIntervalLatencyNs
  sum : r.interval ≠ defaultNs → r.latency ≠ defaultNs → r.interval + r.latency < defaultNs

variable {a r m m' : SensorRequest} {rs : List SensorRequest}

lemma Built.capped (h : r.Built) : r.Capped ∧ r.mode ≠ .off := by
  obtain ⟨nanoapp, mode, interval, latency, hmode, hi, hl, rfl⟩ := h
  refine ⟨?_, hmode⟩
  unfold create
  constructor <;> dsimp only <;> unfold kMaxIntervalLatencyNs defaultNs at * <;> split <;>
    try split <;> omega
  all_goals omega

lemma defaultRequest_capped : defaultRequest.Capped :=
  ⟨.inl rfl, le_rfl, fun _ => .inl rfl, fun h => absurd rfl h⟩

lemma Capped.interval_le (h : r.Capped) : r.interval ≤ defaultNs :=
  h.interval.elim le_of_eq fun hle => hle.trans (by decide)

/-- Two numbers that were capped add up to less than the default. -/
lemma add_lt_default {x y : Nat} (hx : x ≤ kMaxIntervalLatencyNs) (hy : y ≤ kMaxIntervalLatencyNs) :
    x + y < defaultNs := by
  unfold kMaxIntervalLatencyNs at hx hy
  unfold defaultNs
  omega

lemma Capped.getBatchInterval (h : r.Capped) : r.getBatchInterval =
    if r.interval = defaultNs ∨ r.latency = defaultNs then defaultNs
    else r.interval + r.latency := by
  unfold SensorRequest.getBatchInterval
  split
  · rfl
  · rename_i hne
    have hsum := h.sum (fun hi => hne (.inl hi)) fun hl => hne (.inr hl)
    exact Nat.mod_eq_of_lt (hsum.trans (by decide))

lemma Capped.batch_le (h : r.Capped) : r.getBatchInterval ≤ defaultNs := by
  rw [h.getBatchInterval]
  split
  · exact le_rfl
  · rename_i hne
    exact (h.sum (fun hi => hne (.inl hi)) fun hl => hne (.inr hl)).le

lemma Capped.batch_eq_default (h : r.Capped) :
    r.getBatchInterval = defaultNs ↔ r.interval = defaultNs ∨ r.latency = defaultNs := by
  rw [h.getBatchInterval]
  constructor
  · intro heq
    by_contra hne
    rw [if_neg hne] at heq
    exact (h.sum (fun hi => hne (.inl hi)) fun hl => hne (.inr hl)).ne heq
  · exact fun hor => if_pos hor

lemma Capped.batch_of_ne (h : r.Capped) (hne : r.getBatchInterval ≠ defaultNs) :
    r.interval ≠ defaultNs ∧ r.latency ≠ defaultNs ∧
      r.getBatchInterval = r.interval + r.latency := by
  have hor := h.batch_eq_default.not.mp hne
  exact ⟨fun hi => hor (.inl hi), fun hl => hor (.inr hl), by rw [h.getBatchInterval, if_neg hor]⟩

/-- What the merge `m` of `a` and `r` is: it has the least batch interval if there is one, else
the least latency. -/
structure Merges (a r m : SensorRequest) : Prop where
  capped : m.Capped
  mode : m.mode = maximalSensorMode a.mode r.mode
  interval : m.interval = min a.interval r.interval
  latency : a.getBatchInterval = defaultNs → r.getBatchInterval = defaultNs →
    m.latency = min a.latency r.latency
  batch : min a.getBatchInterval r.getBatchInterval ≠ defaultNs →
    m.getBatchInterval = min a.getBatchInterval r.getBatchInterval

lemma mergeWith_merges (ha : a.Capped) (hr : r.Capped) (hmode : r.mode ≠ .off) :
    Merges a r (a.mergeWith r).2 := by
  have hba := ha.getBatchInterval
  have hbr := hr.getBatchInterval
  obtain ⟨hai, hal, haa, has⟩ := ha
  obtain ⟨hri, hrl, hra, hrs⟩ := hr
  unfold mergeWith
  rw [if_pos hmode]
  dsimp only
  have hcapped : Capped { a with
      mode := maximalSensorMode a.mode r.mode
      interval := min a.interval r.interval
      latency := if min a.getBatchInterval r.getBatchInterval = defaultNs then
          min a.latency r.latency
        else (min a.getBatchInterval r.getBatchInterval + 2 ^ 64 - min a.interval r.interval)
          % 2 ^ 64 } := by
    constructor <;> dsimp only <;> unfold kMaxIntervalLatencyNs defaultNs at * <;> grind
  refine ⟨hcapped, rfl, rfl, fun h h' => by simp [h, h'], fun h => ?_⟩
  rw [hcapped.getBatchInterval]
  unfold kMaxIntervalLatencyNs defaultNs at *
  grind

/-- `m` is at most `r` in what a merge takes the least of. -/
structure Le (m r : SensorRequest) : Prop where
  interval : m.interval ≤ r.interval
  batch : m.getBatchInterval ≤ r.getBatchInterval
  latency : m.interval = defaultNs → m.latency ≤ r.latency

lemma Le.trans (ha : a.Capped) (h : Le m a) (h' : Le a r) : Le m r where
  interval := h.interval.trans h'.interval
  batch := h.batch.trans h'.batch
  latency hm := (h.latency hm).trans
    (h'.latency (le_antisymm ha.interval_le (hm ▸ h.interval)))

lemma Merges.le (h : Merges a r m) (ha : a.Capped) (hr : r.Capped) : Le m a ∧ Le m r := by
  have hbatch : m.getBatchInterval ≤ min a.getBatchInterval r.getBatchInterval := by
    by_cases hd : min a.getBatchInterval r.getBatchInterval = defaultNs
    · exact h.capped.batch_le.trans_eq hd.symm
    · exact (h.batch hd).le
  have hlatency (hm : m.interval = defaultNs) : m.latency = min a.latency r.latency := by
    rw [h.interval] at hm
    have hai := ha.interval_le
    have hri := hr.interval_le
    exact h.latency (ha.batch_eq_default.mpr (.inl (by omega)))
      (hr.batch_eq_default.mpr (.inl (by omega)))
  exact ⟨⟨h.interval.trans_le (min_le_left _ _), hbatch.trans (min_le_left _ _),
      fun hm => (hlatency hm).trans_le (min_le_left _ _)⟩,
    ⟨h.interval.trans_le (min_le_right _ _), hbatch.trans (min_le_right _ _),
      fun hm => (hlatency hm).trans_le (min_le_right _ _)⟩⟩

/-! ## Merges of lists -/

/-- The requests of a list are for samples. -/
def AllCapped (rs : List SensorRequest) : Prop := ∀ r ∈ rs, r.Capped ∧ r.mode ≠ .off

/-- `mergeAll`, from any request. -/
def mergeFrom (a : SensorRequest) (rs : List SensorRequest) : SensorRequest :=
  rs.foldl (fun m r => (m.mergeWith r).2) a

/-- What holds at the start and is kept by each merge. -/
lemma mergeFrom_rec {P : SensorRequest → Prop} (hrs : AllCapped rs) (ha : a.Capped) (hP : P a)
    (hstep : ∀ a r m, a.Capped → r.Capped → r ∈ rs → P a → Merges a r m → P m) :
    (mergeFrom a rs).Capped ∧ P (mergeFrom a rs) := by
  refine foldlRecOn rs _ (motive := fun m => m.Capped ∧ P m) ⟨ha, hP⟩ fun m hm r hr => ?_
  have hmerges := mergeWith_merges hm.1 (hrs r hr).1 (hrs r hr).2
  exact ⟨hmerges.capped, hstep m r _ hm.1 (hrs r hr).1 hr hm.2 hmerges⟩

lemma mergeFrom_le (hrs : AllCapped rs) (ha : a.Capped) :
    (mergeFrom a rs).Capped ∧ Le (mergeFrom a rs) a ∧ ∀ r ∈ rs, Le (mergeFrom a rs) r := by
  induction rs generalizing a with
  | nil => exact ⟨ha, ⟨le_rfl, le_rfl, fun _ => le_rfl⟩, nofun⟩
  | cons r rs ih =>
    obtain ⟨hr, hmode⟩ := hrs r mem_cons_self
    have hm := mergeWith_merges ha hr hmode
    obtain ⟨hcapped, hle, hall⟩ := ih (fun r' hr' => hrs r' (.tail _ hr')) hm.capped
    obtain ⟨hma, hmr⟩ := hm.le ha hr
    exact ⟨hcapped, hle.trans hm.capped hma, forall_mem_cons.mpr ⟨hle.trans hm.capped hmr, hall⟩⟩

/-- From a request with both an interval and a latency on, the batch interval is that of one of the
requests. -/
lemma mergeFrom_batch (hrs : AllCapped rs) (ha : a.Capped)
    (hfull : a.getBatchInterval ≠ defaultNs) :
    (mergeFrom a rs).getBatchInterval ≠ defaultNs ∧
      ∃ c ∈ a :: rs, (mergeFrom a rs).getBatchInterval = c.getBatchInterval := by
  refine (mergeFrom_rec (P := fun m => m.getBatchInterval ≠ defaultNs ∧
    ∃ c ∈ a :: rs, m.getBatchInterval = c.getBatchInterval) hrs ha
    ⟨hfull, a, mem_cons_self, rfl⟩ ?_).2
  rintro m r m' hm hr hmem ⟨hne, c, hc, heq⟩ hmerges
  have hlt : m.getBatchInterval < defaultNs := lt_of_le_of_ne hm.batch_le hne
  have hmin : min m.getBatchInterval r.getBatchInterval ≠ defaultNs := by omega
  rw [hmerges.batch hmin]
  refine ⟨hmin, ?_⟩
  rcases min_choice m.getBatchInterval r.getBatchInterval with h | h
  · exact ⟨c, hc, h.trans heq⟩
  · exact ⟨r, .tail _ hmem, h⟩

/-- The least interval, and the least latency or batch interval, are those of some request. -/
structure Attained (rs : List SensorRequest) (m : SensorRequest) : Prop where
  interval : ∃ r ∈ rs, r.interval = m.interval
  latency : m.interval = defaultNs → ∃ l ∈ rs, l.interval = defaultNs ∧ l.latency = m.latency
  batch : ∃ c ∈ rs, c.getBatchInterval ≤ m.getBatchInterval

lemma Merges.attained (h : Merges a r m) (ha : a.Capped) (hr : r.Capped) (hmem : r ∈ rs)
    (hcovered : Covered rs) (hatt : Attained rs a) : Attained rs m := by
  have hinterval : ∃ r' ∈ rs, r'.interval = m.interval := by
    rw [h.interval]
    rcases min_choice a.interval r.interval with hmin | hmin
    · rw [hmin]
      exact hatt.interval
    · exact ⟨r, hmem, hmin.symm⟩
  -- a latency that is taken over comes without an interval
  have hlatency (hba : a.getBatchInterval = defaultNs) (hbr : r.getBatchInterval = defaultNs)
      (hm : m.interval = defaultNs ∨ m.latency ≠ defaultNs) :
      ∃ l ∈ rs, l.interval = defaultNs ∧ l.latency = m.latency := by
    rw [ha.batch_eq_default] at hba
    rw [hr.batch_eq_default] at hbr
    have hmin := h.latency (ha.batch_eq_default.mpr hba) (hr.batch_eq_default.mpr hbr)
    have hi := h.interval
    have hai := ha.interval_le
    have hri := hr.interval_le
    have hal := ha.latency
    have hrl := hr.latency
    by_cases hle : a.latency ≤ r.latency ∧ a.interval = defaultNs
    · rw [hmin, min_eq_left hle.1]
      exact hatt.latency hle.2
    · exact ⟨r, hmem, by omega, by omega⟩
  refine ⟨hinterval, fun hm => ?_, ?_⟩
  · have hi := h.interval
    have hai := ha.interval_le
    have hri := hr.interval_le
    exact hlatency (ha.batch_eq_default.mpr (.inl (by omega)))
      (hr.batch_eq_default.mpr (.inl (by omega))) (.inl hm)
  · by_cases hd : min a.getBatchInterval r.getBatchInterval = defaultNs
    · by_cases hm : m.getBatchInterval = defaultNs
      · exact ⟨r, hmem, hm ▸ hr.batch_le⟩
      · obtain ⟨hi, hl, hsum⟩ := h.capped.batch_of_ne hm
        have hba := ha.batch_le
        have hbr := hr.batch_le
        obtain ⟨l, hlmem, hli, hll⟩ := hlatency (by omega) (by omega) (.inr hl)
        obtain ⟨r', hr', hri'⟩ := hinterval
        rw [hsum, ← hri', ← hll]
        exact hcovered l hlmem hli (hll ▸ hl) r' hr' (hri' ▸ hi)
    · rw [h.batch hd]
      rcases min_choice a.getBatchInterval r.getBatchInterval with hmin | hmin
      · rw [hmin]
        exact hatt.batch
      · exact ⟨r, hmem, hmin.ge⟩

/-- There is one request that is least and attained. -/
lemma Attained.eq (hatt : Attained rs m) (hatt' : Attained rs m') (hle : ∀ r ∈ rs, Le m r)
    (hle' : ∀ r ∈ rs, Le m' r) (hm : m.Capped) (hm' : m'.Capped) :
    m.interval = m'.interval ∧ m.latency = m'.latency := by
  have hinterval : m.interval = m'.interval := by
    obtain ⟨r, hr, heq⟩ := hatt.interval
    obtain ⟨r', hr', heq'⟩ := hatt'.interval
    exact le_antisymm (heq' ▸ (hle r' hr').interval) (heq ▸ (hle' r hr).interval)
  have hbatch : m.getBatchInterval = m'.getBatchInterval := by
    obtain ⟨c, hc, hcle⟩ := hatt.batch
    obtain ⟨c', hc', hcle'⟩ := hatt'.batch
    exact le_antisymm ((hle c' hc').batch.trans hcle') ((hle' c hc).batch.trans hcle)
  refine ⟨hinterval, ?_⟩
  by_cases hd : m.interval = defaultNs
  · have hd' : m'.interval = defaultNs := hinterval ▸ hd
    obtain ⟨l, hl, -, heq⟩ := hatt.latency hd
    obtain ⟨l', hl', -, heq'⟩ := hatt'.latency hd'
    exact le_antisymm (heq' ▸ (hle l' hl').latency hd) (heq ▸ (hle' l hl).latency hd')
  · have hd' : m'.interval ≠ defaultNs := hinterval ▸ hd
    by_cases hfull : m.getBatchInterval = defaultNs
    · rw [(hm.batch_eq_default.mp hfull).resolve_left hd,
        (hm'.batch_eq_default.mp (hbatch ▸ hfull)).resolve_left hd']
    · have hsum := (hm.batch_of_ne hfull).2.2
      have hsum' := (hm'.batch_of_ne (hbatch ▸ hfull)).2.2
      omega

instance : RightCommutative maximalSensorMode where
  right_comm x y z := by cases x <;> cases y <;> cases z <;> rfl

/-- Modes, intervals and latencies, merged one by one. -/
def meet (a b : SensorMode × Nat × Nat) : SensorMode × Nat × Nat :=
  (maximalSensorMode a.1 b.1, min a.2.1 b.2.1, min a.2.2 b.2.2)

instance : RightCommutative meet where
  right_comm a b c := by
    simp only [meet, RightCommutative.right_comm]

lemma foldl_meet_le (keys : List (SensorMode × Nat × Nat)) (a : SensorMode × Nat × Nat) :
    (keys.foldl meet a).2.1 ≤ a.2.1 ∧ (keys.foldl meet a).2.2 ≤ a.2.2 := by
  induction keys generalizing a with
  | nil => exact ⟨le_rfl, le_rfl⟩
  | cons b keys ih =>
    obtain ⟨hi, hb⟩ := ih (meet a b)
    exact ⟨hi.trans (min_le_left _ _), hb.trans (min_le_left _ _)⟩

lemma mergeFrom_mode (hrs : AllCapped rs) (ha : a.Capped) :
    (mergeFrom a rs).mode = (rs.map mode).foldl maximalSensorMode a.mode := by
  induction rs generalizing a with
  | nil => rfl
  | cons r rs ih =>
    have hm := mergeWith_merges ha (hrs r mem_cons_self).1 (hrs r mem_cons_self).2
    rw [map_cons, foldl_cons, ← hm.mode]
    exact ih (fun r' hr' => hrs r' (.tail _ hr')) hm.capped

lemma Covered.cons_defaultRequest (h : Covered rs) : Covered (defaultRequest :: rs) := by
  rintro l (_ | ⟨_, hl⟩) hli hll r (_ | ⟨_, hr⟩) hri
  · exact absurd rfl hll
  · exact absurd rfl hll
  · exact absurd rfl hri
  · obtain ⟨c, hc, hle⟩ := h l hl hli hll r hr hri
    exact ⟨c, .tail _ hc, hle⟩

/-- If the latencies are covered, a request that is least and attained serves all clients. -/
lemma Covered.serves_of_least (h : Covered rs) (hatt : Attained rs m) (hle : ∀ r ∈ rs, Le m r)
    (hm : m.Capped) (hmem : r ∈ rs) (hr : r.Capped) : m.Serves r := by
  have hler := hle r hmem
  refine ⟨hler.interval, fun hl hi => ?_, fun hl hi => ?_⟩
  · by_cases hd : m.interval = defaultNs
    · exact hler.latency hd
    · obtain ⟨r', hr', heq⟩ := hatt.interval
      obtain ⟨c, hc, hbatch⟩ := h r hmem hi hl r' hr' (heq ▸ hd)
      have hsum := add_lt_default (hm.interval.resolve_left hd) ((hr.alone hi).resolve_left hl)
      have hle' := (hle c hc).batch.trans (heq ▸ hbatch)
      rw [(hm.batch_of_ne (hle'.trans_lt hsum).ne).2.2] at hle'
      exact Nat.le_of_add_le_add_left hle'
  · have hfull := hr.batch_eq_default.not.mpr (not_or.mpr ⟨hi, hl⟩)
    have hlt := lt_of_le_of_ne hr.batch_le hfull
    have hle' := hler.batch
    rwa [(hm.batch_of_ne (hler.batch.trans_lt hlt).ne).2.2, (hr.batch_of_ne hfull).2.2] at hle'

/-- In whatever order the clients come, the merge is least and attained. -/
lemma Covered.mergeFrom_least {rs' : List SensorRequest} (h : Covered (defaultRequest :: rs))
    (hrs : AllCapped rs) (hperm : rs.Perm rs') :
    (mergeFrom defaultRequest rs').Capped ∧
      (∀ r ∈ defaultRequest :: rs, Le (mergeFrom defaultRequest rs') r) ∧
      Attained (defaultRequest :: rs) (mergeFrom defaultRequest rs') := by
  have hrs' : AllCapped rs' := fun r hr => hrs r (hperm.mem_iff.mpr hr)
  obtain ⟨hcapped, hle, hall⟩ := mergeFrom_le hrs' defaultRequest_capped
  refine ⟨hcapped, forall_mem_cons.mpr ⟨hle, fun r hr => hall r (hperm.mem_iff.mp hr)⟩, ?_⟩
  refine (mergeFrom_rec hrs' defaultRequest_capped
    ⟨⟨_, mem_cons_self, rfl⟩, fun _ => ⟨_, mem_cons_self, rfl, rfl⟩, _, mem_cons_self, le_rfl⟩
    fun a r m ha hr hmem hatt hm => ?_).2
  exact hm.attained ha hr (.tail _ (hperm.mem_iff.mpr hmem)) h hatt

/-- **If the latencies are covered, the merge is the least request.** -/
lemma Covered.serves (hrs : AllCapped rs) (hcovered : Covered rs) :
    (∀ rs', rs.Perm rs' → (mergeAll rs').attributes = (mergeAll rs).attributes) ∧
      ∀ r ∈ rs, (mergeAll rs).Serves r := by
  have hcons := hcovered.cons_defaultRequest
  obtain ⟨hcapped, hle, hatt⟩ := hcons.mergeFrom_least hrs (.refl rs)
  refine ⟨fun rs' hperm => ?_, fun r hr => ?_⟩
  · obtain ⟨hcapped', hle', hatt'⟩ := hcons.mergeFrom_least hrs hperm
    obtain ⟨hinterval, hlatency⟩ := hatt'.eq hatt hle' hle hcapped' hcapped
    have hmode : (mergeFrom defaultRequest rs').mode = (mergeFrom defaultRequest rs).mode := by
      rw [mergeFrom_mode hrs defaultRequest_capped,
        mergeFrom_mode (fun r hr => hrs r (hperm.mem_iff.mpr hr)) defaultRequest_capped,
        (hperm.map mode).foldl_eq]
    exact congrArg₂ Prod.mk hmode (congrArg₂ Prod.mk hinterval hlatency)
  · exact hcons.serves_of_least hatt hle hcapped (.tail _ hr) (hrs r hr).1

lemma mergeFrom_uniform {x y : Nat} (hrs : AllCapped rs) (ha : a.Capped)
    (huniform : ∀ r ∈ rs, (r.interval = x ∨ r.interval = defaultNs) ∧
      (r.latency = y ∨ r.latency = defaultNs) ∧ (r.interval = defaultNs ∨ r.latency = defaultNs))
    (hi : a.interval = x ∨ a.interval = defaultNs) (hl : a.latency = y ∨ a.latency = defaultNs) :
    (mergeFrom a rs).attributes = (rs.map attributes).foldl meet a.attributes := by
  induction rs generalizing a with
  | nil => rfl
  | cons r rs ih =>
    obtain ⟨hr, hmode⟩ := hrs r mem_cons_self
    obtain ⟨hri, hrl, hor⟩ := huniform r mem_cons_self
    have hm := mergeWith_merges ha hr hmode
    have hbr := hr.batch_eq_default.mpr hor
    have hinterval := hm.interval
    have hlatency : (a.mergeWith r).2.latency = min a.latency r.latency := by
      by_cases hba : a.getBatchInterval = defaultNs
      · exact hm.latency hba hbr
      · obtain ⟨hai, hal, hsum⟩ := ha.batch_of_ne hba
        have hmin : min a.getBatchInterval r.getBatchInterval = a.getBatchInterval := by
          rw [hbr, min_eq_left ha.batch_le]
        have hbatch := hm.batch (hmin.symm ▸ hba)
        rw [hmin] at hbatch
        have hsum' := (hm.capped.batch_of_ne (hbatch ▸ hba)).2.2
        have hai' := ha.interval_le
        have hal' := ha.latency
        omega
    have hkey : (a.mergeWith r).2.attributes = meet a.attributes r.attributes :=
      congrArg₂ Prod.mk hm.mode (congrArg₂ Prod.mk hinterval hlatency)
    have hi' : (a.mergeWith r).2.interval = x ∨ (a.mergeWith r).2.interval = defaultNs := by omega
    have hl' : (a.mergeWith r).2.latency = y ∨ (a.mergeWith r).2.latency = defaultNs := by omega
    rw [map_cons, foldl_cons, ← hkey]
    exact ih (fun r' hr' => hrs r' (.tail _ hr')) hm.capped
      (fun r' hr' => huniform r' (.tail _ hr')) hi' hl'

/-- **A merge of one interval and one latency** takes each of them. -/
lemma Uniform.serves (hrs : AllCapped rs) (huniform : Uniform rs) :
    (∀ rs', rs.Perm rs' → (mergeAll rs').attributes = (mergeAll rs).attributes) ∧
      ∀ r ∈ rs, (mergeAll rs).Serves r := by
  obtain ⟨x, y, huniform⟩ := huniform
  have hmerged : ∀ rs', rs.Perm rs' → (mergeAll rs').attributes =
      (rs'.map attributes).foldl meet defaultRequest.attributes := fun rs' hperm =>
    mergeFrom_uniform (fun r hr => hrs r (hperm.mem_iff.mpr hr)) defaultRequest_capped
      (fun r hr => huniform r (hperm.mem_iff.mpr hr)) (.inr rfl) (.inr rfl)
  have hsame : ∀ rs', rs.Perm rs' → (mergeAll rs').attributes = (mergeAll rs).attributes := by
    intro rs' hperm
    rw [hmerged rs' hperm, hmerged rs (.refl rs), (hperm.map attributes).foldl_eq]
  refine ⟨hsame, fun r hr => ?_⟩
  -- with `r` at the front, the fold begins with the meet of its attributes
  have hle := foldl_meet_le ((rs.erase r).map attributes)
    (meet defaultRequest.attributes r.attributes)
  rw [← foldl_cons, ← map_cons, ← hmerged _ (perm_cons_erase hr), hsame _ (perm_cons_erase hr)]
    at hle
  refine ⟨hle.1.trans (min_le_right _ _), fun _ _ => hle.2.trans (min_le_right _ _), ?_⟩
  exact fun hl hi => absurd (huniform r hr).2.2 (not_or.mpr ⟨hi, hl⟩)

/-- Where all clients are served in any order, and some latency is not covered, no client asks for
an interval and a latency. -/
lemma batch_of_not_covered (hrs : AllCapped rs)
    (hperm : ∀ rs', rs.Perm rs' → (mergeAll rs').attributes = (mergeAll rs).attributes)
    {l : SensorRequest} (hl : (mergeAll rs).latency ≤ l.latency) (hr : r ∈ rs)
    (hnot : ∀ c ∈ rs, r.interval + l.latency < c.getBatchInterval) :
    ∀ c ∈ rs, c.getBatchInterval = defaultNs := by
  intro c hc
  by_contra hfull
  have hsame := hperm _ (perm_cons_erase hc)
  have hm := mergeWith_merges defaultRequest_capped (hrs c hc).1 (hrs c hc).2
  have hmin : min defaultRequest.getBatchInterval c.getBatchInterval = c.getBatchInterval :=
    min_eq_right (hrs c hc).1.batch_le
  have hbatch := hm.batch (hmin.symm ▸ hfull)
  rw [hmin] at hbatch
  have hrest : AllCapped (rs.erase c) := fun r' hr' => hrs r' (mem_of_mem_erase hr')
  obtain ⟨hne, c', hc', heq⟩ := mergeFrom_batch hrest hm.capped (hbatch ▸ hfull)
  have hlt : r.interval + l.latency <
      (mergeFrom (defaultRequest.mergeWith c).2 (rs.erase c)).getBatchInterval := by
    rw [heq]
    rcases mem_cons.mp hc' with rfl | hc'
    · exact hbatch ▸ hnot c hc
    · exact hnot c' (mem_of_mem_erase hc')
  have hcapped := (mergeFrom_le hrest hm.capped).1
  rw [(hcapped.batch_of_ne hne).2.2] at hlt
  have hinterval := ((mergeFrom_le hrs defaultRequest_capped).2.2 r hr).interval
  have hi : (mergeFrom (defaultRequest.mergeWith c).2 (rs.erase c)).interval =
      (mergeAll rs).interval := congrArg (·.2.1) hsame
  have hl' : (mergeFrom (defaultRequest.mergeWith c).2 (rs.erase c)).latency =
      (mergeAll rs).latency := congrArg (·.2.2) hsame
  have hinterval' : (mergeAll rs).interval ≤ r.interval := hinterval
  omega

/-- An interval and a latency of two clients add up to those of the merge, if no client asks for
both. -/
lemma sum_of_perm (hrs : AllCapped rs)
    (hperm : ∀ rs', rs.Perm rs' → (mergeAll rs').attributes = (mergeAll rs).attributes)
    (hnone : ∀ c ∈ rs, c.getBatchInterval = defaultNs) {l : SensorRequest} (hr : r ∈ rs)
    (hri : r.interval ≠ defaultNs) (hl : l ∈ rs) (hli : l.interval = defaultNs)
    (hll : l.latency ≠ defaultNs) :
    (mergeAll rs).interval + (mergeAll rs).latency = r.interval + l.latency := by
  have hne : l ≠ r := fun h => hri (h ▸ hli)
  have hl' : l ∈ rs.erase r := (mem_erase_of_ne hne).mpr hl
  have horder : rs.Perm (r :: l :: (rs.erase r).erase l) :=
    (perm_cons_erase hr).trans ((perm_cons_erase hl').cons r)
  have hsame := hperm _ horder
  obtain ⟨hrc, hrmode⟩ := hrs r hr
  obtain ⟨hlc, hlmode⟩ := hrs l hl
  have hm := mergeWith_merges defaultRequest_capped hrc hrmode
  have hm' := mergeWith_merges hm.capped hlc hlmode
  have hrl : r.latency = defaultNs := (hrc.batch_eq_default.mp (hnone r hr)).resolve_left hri
  have hfirst : (defaultRequest.mergeWith r).2.latency = defaultNs := by
    rw [hm.latency rfl (hnone r hr), hrl]
    rfl
  have hinterval : ((defaultRequest.mergeWith r).2.mergeWith l).2.interval = r.interval := by
    have hdefault : defaultRequest.interval = defaultNs := rfl
    have hri' := hrc.interval_le
    rw [hm'.interval, hm.interval, hli]
    omega
  have hlatency : ((defaultRequest.mergeWith r).2.mergeWith l).2.latency = l.latency := by
    rw [hm'.latency (hm.capped.batch_eq_default.mpr (.inr hfirst)) (hnone l hl), hfirst,
      min_eq_right hlc.latency]
  have hfull := hm'.capped.batch_eq_default.not.mpr
    (not_or.mpr ⟨hinterval ▸ hri, hlatency ▸ hll⟩)
  have hrest : AllCapped ((rs.erase r).erase l) := fun r' hr' =>
    hrs r' (mem_of_mem_erase (mem_of_mem_erase hr'))
  obtain ⟨hmne, c, hc, heq⟩ := mergeFrom_batch hrest hm'.capped hfull
  rcases mem_cons.mp hc with rfl | hc
  · rw [((mergeFrom_le hrest hm'.capped).1.batch_of_ne hmne).2.2,
      (hm'.capped.batch_of_ne hfull).2.2, hinterval, hlatency] at heq
    have hi : (mergeFrom ((defaultRequest.mergeWith r).2.mergeWith l).2
        ((rs.erase r).erase l)).interval = (mergeAll rs).interval := congrArg (·.2.1) hsame
    have hl : (mergeFrom ((defaultRequest.mergeWith r).2.mergeWith l).2
        ((rs.erase r).erase l)).latency = (mergeAll rs).latency := congrArg (·.2.2) hsame
    rw [← hi, ← hl, heq]
  · exact absurd (heq.trans (hnone c (mem_of_mem_erase (mem_of_mem_erase hc)))) hmne

/-- **Whom a merge serves.**  The merge does not depend on the order of the clients and serves them
all exactly if every latency without an interval is covered by an earlier batch, or there is only
one interval and one latency. -/
theorem mergeAll_serves_iff {rs : List SensorRequest} (hbuilt : ∀ r ∈ rs, r.Built) :
    ((∀ rs', rs.Perm rs' → (mergeAll rs').attributes = (mergeAll rs).attributes) ∧
      ∀ r ∈ rs, (mergeAll rs).Serves r) ↔ Covered rs ∨ Uniform rs := by
  have hrs : AllCapped rs := fun r hr => (hbuilt r hr).capped
  refine ⟨?_, fun h => h.elim (Covered.serves hrs) (Uniform.serves hrs)⟩
  rintro ⟨hperm, hserves⟩
  refine or_iff_not_imp_left.mpr fun hnot => ?_
  unfold Covered at hnot
  push Not at hnot
  obtain ⟨l, hl, hli, hll, r, hr, hri, hbatch⟩ := hnot
  have hnone := batch_of_not_covered hrs hperm ((hserves l hl).latency hll hli) hr hbatch
  refine ⟨(mergeAll rs).interval, (mergeAll rs).latency, fun r' hr' => ?_⟩
  have hor := ((hrs r' hr').1.batch_eq_default).mp (hnone r' hr')
  refine ⟨or_iff_not_imp_right.mpr fun hi => ?_, or_iff_not_imp_right.mpr fun hl' => ?_, hor⟩
  · have hsum := sum_of_perm hrs hperm hnone hr' hi hl hli hll
    have hle := (hserves r' hr').interval
    have hle' := (hserves l hl).latency hll hli
    omega
  · have hi := hor.resolve_right hl'
    have hsum := sum_of_perm hrs hperm hnone hr hri hr' hi hl'
    have hle := (hserves r hr).interval
    have hle' := (hserves r' hr').latency hl' hi
    omega

/-- A client for each kind of request, at two intervals. -/
def twoIntervals : List SensorRequest :=
  [create (some 1) .activeContinuous 100 defaultNs, create (some 2) .passiveContinuous 50 60]

/-- A third client, which asks for a latency at no interval. -/
def latencyOnly (latency : Nat) : SensorRequest :=
  create (some 3) .passiveContinuous defaultNs latency

lemma built_of_three {latency : Nat} (hlatency : latency ≤ defaultNs) :
    ∀ r ∈ twoIntervals ++ [latencyOnly latency], r.Built := by
  rintro r (_ | ⟨_, _ | ⟨_, _ | ⟨_, ⟨⟩⟩⟩⟩)
  · exact ⟨some 1, .activeContinuous, 100, defaultNs, by decide, by decide, by decide, rfl⟩
  · exact ⟨some 2, .passiveContinuous, 50, 60, by decide, by decide, by decide, rfl⟩
  · exact ⟨some 3, .passiveContinuous, defaultNs, latency, by decide, le_rfl, hlatency, rfl⟩

theorem mergeAll_serves_iff_sample :
    (mergeAll (twoIntervals ++ [latencyOnly 70])).attributes = (.activeContinuous, 50, 60) ∧
      ∀ r ∈ twoIntervals ++ [latencyOnly 70],
        (mergeAll (twoIntervals ++ [latencyOnly 70])).Serves r :=
  ⟨by decide, ((mergeAll_serves_iff (built_of_three (by decide))).mpr
    (.inl (by unfold Covered; decide))).2⟩

/-- A third client with a latency below the others' is not served, and the merge depends on the
order of the clients. -/
theorem latency_lost :
    (∀ r ∈ twoIntervals ++ [latencyOnly 5], r.Built) ∧
      ¬ (mergeAll (twoIntervals ++ [latencyOnly 5])).Serves (latencyOnly 5) ∧
      (mergeAll (latencyOnly 5 :: twoIntervals)).attributes ≠
        (mergeAll (twoIntervals ++ [latencyOnly 5])).attributes := by
  refine ⟨built_of_three (by decide), fun h => ?_, by decide⟩
  exact absurd (h.latency (by decide) (by decide)) (by decide)

end SensorRequest

end Chre
