import AlpsSystem.UpdateEngine.CycleBreaker

/-!
# One search for circuits

`Circuit` finds every circuit through the current vertex, unless the path to it holds a
cut edge.  The argument is Johnson's: a blocked vertex off the stack leads only to
blocked vertices, none of them the current one, and waits for each of them.
-/

namespace UpdateEngine

open Relation (TransGen ReflTransGen)

open List

/-! ## The edges of a walk -/

@[simp] lemma walkEdges_cons_cons (a b : Nat) (l : List Nat) :
    walkEdges (a :: b :: l) = (a, b) :: walkEdges (b :: l) := rfl

variable {l : List Nat}

lemma mem_walkEdges_append {e : Edge} (h : e ∈ walkEdges l) (r : List Nat) :
    e ∈ walkEdges (l ++ r) := by
  induction l with
  | nil => simp [walkEdges] at h
  | cons a l ih =>
    cases l with
    | nil => simp [walkEdges] at h
    | cons b l =>
      rcases mem_cons.mp h with rfl | h
      · exact mem_cons_self
      · exact .tail _ (ih h)

/-- The first two edges of a walk do not depend on what comes after three vertices. -/
lemma walkEdges_take_append (h : 3 ≤ l.length) (r : List Nat) :
    (walkEdges (l ++ r)).take 2 = (walkEdges l).take 2 := by
  match l, h with
  | a :: b :: c :: l, _ => simp

lemma forall_mem_walkEdges {R : Nat → Nat → Prop} (h : l.IsChain R) :
    ∀ e ∈ walkEdges l, R e.1 e.2 := by
  induction l with
  | nil => exact nofun
  | cons a l ih =>
    cases l with
    | nil => exact nofun
    | cons b l =>
      rw [isChain_cons_cons] at h
      intro e he
      rcases mem_cons.mp he with rfl | he
      · exact h.1
      · exact ih h.2 e he

/-! ## The invariant -/

namespace Search

/-- An edge the search follows. -/
def Adj (c : Search) (v w : Nat) : Prop := w ∈ c.subgraphEdges v

/-- A vertex the search can come to. -/
def In (c : Search) (x : Nat) : Prop := ReflTransGen c.Adj c.currentVertex x

/-- The edges the search follows are edges of the subgraph. -/
structure WellFormed (c : Search) : Prop where
  current : c.currentVertex < c.subgraph.size
  edge : ∀ x w, c.In x → c.Adj x w → c.subgraph.HasEdge x w

lemma WellFormed.lt {c : Search} (h : c.WellFormed) {x : Nat} (hx : c.In x) :
    x < c.subgraph.size := by
  cases hx with
  | refl => exact h.current
  | tail hprev hadj => exact (h.edge _ _ hprev hadj).2.1

lemma WellFormed.isChain {c : Search} (h : c.WellFormed)
    (hl : l.IsChain c.Adj) (hin : ∀ x ∈ l, c.In x) : l.IsChain c.subgraph.HasEdge := by
  induction l with
  | nil => exact .nil
  | cons a l ih =>
    cases l with
    | nil => exact .singleton _
    | cons b l =>
      rw [isChain_cons_cons] at hl ⊢
      exact ⟨h.edge a b (hin a mem_cons_self) hl.1,
        ih hl.2 fun x hx => hin x (.tail _ hx)⟩

end Search

/-- What holds between two calls of `Circuit`. -/
structure Searching (c : Search) (s : Breaker) : Prop where
  /-- The stack is a simple walk from the current vertex. -/
  nodup : s.stack.Nodup
  walk : s.stack.IsChain c.Adj
  starts : ∀ x ∈ s.stack.head?, x = c.currentVertex
  inside : ∀ x, s.blocked x = true → c.In x
  /-- The stack is blocked. -/
  onStack : ∀ x ∈ s.stack, s.blocked x = true
  /-- A blocked vertex off the stack leads to blocked vertices, and waits for them. -/
  parked : ∀ x, x ∉ s.stack → s.blocked x = true → ∀ w, c.Adj x w →
    w ≠ c.currentVertex ∧ s.blocked w = true ∧ s.Waits x w
  /-- Only blocked vertices are waited for. -/
  waits : ∀ x w, s.Waits x w → s.blocked w = true
  /-- No vertex of the stack waits for one above it. -/
  apart : s.stack.Pairwise fun v r => ¬ TransGen s.Waits v r

open Breaker Option

section

variable {c : Search} {s s' : Breaker} {v : Nat} {st : List Nat} {cut cut' : List Edge}

/-- `v` may come next on the stack. -/
def Extends (c : Search) (st : List Nat) (v : Nat) : Prop :=
  (st = [] ∧ v = c.currentVertex) ∨ (v ≠ c.currentVertex ∧ ∃ u ∈ st.getLast?, c.Adj u v)

lemma push_blocked {x : Nat} : (s.push v).blocked x ↔ x = v ∨ s.blocked x := by
  by_cases hx : x = v
  · subst hx
    simp [push]
  · simp [push, hx]

section

variable (h : Searching c s)

include h

lemma Searching.push (hfree : s.blocked v = false)
    (hext : Extends c s.stack v) : Searching c (s.push v) := by
  have hnot : v ∉ s.stack := fun hmem => by
    have := h.onStack v hmem
    simp [hfree] at this
  refine ⟨?_, ?_, ?_, ?_, ?_, ?_, ?_, ?_⟩
  · exact nodup_append.mpr ⟨h.nodup, nodup_singleton v,
      fun a ha b hb heq => hnot (mem_singleton.mp hb ▸ heq ▸ ha)⟩
  · refine isChain_append.mpr ⟨h.walk, .singleton v, fun a ha b hb => ?_⟩
    obtain rfl : b = v := by simpa using hb.symm
    rcases hext with ⟨hnil, -⟩ | ⟨-, u, hu, hadj⟩
    · simp [hnil] at ha
    · rwa [mem_unique ha hu]
  · intro x hx
    rcases hext with ⟨hnil, rfl⟩ | ⟨-, u, hu, -⟩
    · simpa [push, hnil] using hx.symm
    · apply h.starts
      obtain ⟨y, hy⟩ : ∃ y, s.stack.head? = some y := by
        cases hs : s.stack with
        | nil => simp [hs] at hu
        | cons y ys => exact ⟨y, rfl⟩
      simpa [Breaker.push, hy] using hx
  · intro x hx
    rcases push_blocked.mp hx with rfl | hx
    · rcases hext with ⟨-, rfl⟩ | ⟨-, u, hu, hadj⟩
      · exact .refl
      · exact (h.inside u (h.onStack u (mem_of_getLast? hu))).tail hadj
    · exact h.inside x hx
  · intro x hx
    rcases mem_append.mp hx with hx | hx
    · exact push_blocked.mpr (.inr (h.onStack x hx))
    · exact push_blocked.mpr (.inl (mem_singleton.mp hx))
  · intro x hx hb w hw
    have hxv : x ≠ v := fun heq => hx (mem_append_right _ (mem_singleton.mpr heq))
    obtain ⟨hne, hbw, hwait⟩ := h.parked x (fun hmem => hx (mem_append_left _ hmem))
      ((push_blocked.mp hb).resolve_left hxv) w hw
    exact ⟨hne, push_blocked.mpr (.inr hbw), hwait⟩
  · exact fun x w hw => push_blocked.mpr (.inr (h.waits x w hw))
  · refine pairwise_append.mpr ⟨h.apart, pairwise_singleton _ _, fun a _ b hb ht => ?_⟩
    obtain rfl := mem_singleton.mp hb
    -- nothing waits for a vertex that is not blocked
    obtain ⟨y, -, hyb⟩ := TransGen.tail'_iff.mp ht
    have := h.waits y b hyb
    simp [hfree] at this

/-- The walk without its last vertex. -/
lemma Searching.below (hst : s.stack = st ++ [v]) :
    st.Nodup ∧ v ∉ st ∧ st.IsChain c.Adj ∧ (∀ x ∈ st.head?, x = c.currentVertex) ∧
      st.Pairwise (fun a r => ¬ TransGen s.Waits a r) ∧ ∀ a ∈ st, ¬ TransGen s.Waits a v := by
  have hnodup := nodup_append.mp (hst ▸ h.nodup)
  have hapart := pairwise_append.mp (hst ▸ h.apart)
  refine ⟨hnodup.1, fun hmem => hnodup.2.2 v hmem v (mem_singleton.mpr rfl) rfl,
    (isChain_append.mp (hst ▸ h.walk)).1, fun x hx => h.starts x ?_, hapart.1,
    fun a ha => hapart.2.2 a ha v (mem_singleton.mpr rfl)⟩
  rw [hst]
  cases st with
  | nil => simp at hx
  | cons y ys => simpa using hx

omit h in
theorem park_waits {ws : List Nat} {x w : Nat} :
    (s.park v ws).Waits x w ↔ s.Waits x w ∨ (x = v ∧ w ∈ ws) := by
  unfold Breaker.Waits park
  dsimp only
  split
  case isTrue hw => rw [mem_insertKey]; tauto
  case isFalse hw => tauto

/-- Leaving a vertex from which no circuit was found: it waits for all it leads to. -/
lemma Searching.pop_parked (hst : s.stack = st ++ [v])
    (hout : ∀ w, c.Adj v w → w ≠ c.currentVertex ∧ s.blocked w = true) :
    Searching c { s.park v (c.subgraphEdges v) with stack := st } := by
  obtain ⟨hnodup, hnot, hwalk, hstarts, hapart, hv⟩ := h.below hst
  have hsub : ∀ x ∈ st, x ∈ s.stack := fun x hx => hst ▸ mem_append_left _ hx
  refine ⟨hnodup, hwalk, hstarts, h.inside, fun x hx => h.onStack x (hsub x hx),
    fun x hx hb w hw => ?_, fun x w hw => ?_, ?_⟩
  · by_cases hxv : x = v
    · subst hxv
      exact ⟨(hout w hw).1, (hout w hw).2, park_waits.mpr (.inr ⟨rfl, hw⟩)⟩
    · have hx' : x ∉ s.stack := by simp [hst, hx, hxv]
      obtain ⟨hne, hbw, hwait⟩ := h.parked x hx' hb w hw
      exact ⟨hne, hbw, park_waits.mpr (.inl hwait)⟩
  · rcases park_waits.mp hw with hw | ⟨rfl, hw⟩
    · exact h.waits x w hw
    · exact (hout w hw).2
  · refine hapart.imp_of_mem fun {a r} ha hr hno ht => ?_
    have hav : a ≠ v := fun heq => hnot (heq ▸ ha)
    -- a chain that uses a new entry first gets to `v`
    have hsplit : TransGen s.Waits a r ∨ TransGen s.Waits a v := by
      clear hno hr
      induction ht with
      | single hstep =>
        rcases park_waits.mp hstep with hstep | ⟨heq, -⟩
        · exact .inl (.single hstep)
        · exact absurd heq hav
      | tail _ hstep ih =>
        rcases ih with ih | ih
        · rcases park_waits.mp hstep with hstep | ⟨rfl, -⟩
          · exact .inl (ih.tail hstep)
          · exact .inr ih
        · exact .inr ih
    exact hsplit.elim hno (hv a ha)

/-- Leaving a vertex on a circuit: it is unblocked. -/
lemma Searching.pop_unblocked (hst : s.stack = st ++ [v])
    (hun : Unblocked s.Waits [v] s s') : Searching c { s' with stack := st } := by
  obtain ⟨hnodup, hnot, hwalk, hstarts, hapart, hv⟩ := h.below hst
  have hsub : ∀ x ∈ st, x ∈ s.stack := fun x hx => hst ▸ mem_append_left _ hx
  have hvfree : s'.blocked v = false := hun.unblocked v (mem_singleton.mpr rfl)
  refine ⟨hnodup, hwalk, hstarts, fun x hx => h.inside x (hun.blocked_of hx), fun x hx => ?_,
    fun x hx hb w hw => ?_, fun x w hw => ?_, ?_⟩
  · rcases hun.vertex x with hsame | ⟨-, -, u, hu, hchain⟩
    · exact hsame.blocked.trans (h.onStack x (hsub x hx))
    · -- a vertex of the stack does not wait for `v`
      obtain rfl := mem_singleton.mp hu
      rcases Relation.reflTransGen_iff_eq_or_transGen.mp hchain with heq | ht
      · exact absurd (heq ▸ hx) hnot
      · exact absurd ht (hv x hx)
  · have hxv : x ≠ v := by
      rintro rfl
      exact Bool.false_ne_true (hvfree.symm.trans hb)
    have hx' : x ∉ s.stack := by
      have hx'' : x ∉ st := hx
      simp [hst, hx'', hxv]
    obtain ⟨hne, hbw, hwait⟩ := h.parked x hx' (hun.blocked_of hb) w hw
    rcases hun.vertex w with hsame | ⟨hrel, -⟩
    · refine ⟨hne, hsame.blocked.trans hbw, ?_⟩
      change x ∈ s'.blockedGraph w
      rw [hsame.entries]
      exact hwait
    · exact absurd ((hrel.waiting x hwait).symm.trans hb) Bool.false_ne_true
  · have hw' : x ∈ s'.blockedGraph w := hw
    rcases hun.vertex w with hsame | ⟨hrel, -⟩
    · exact hsame.blocked.trans (h.waits x w (hun.waits_of hw))
    · rw [hrel.entries] at hw'
      exact absurd hw' not_mem_nil
  · exact hapart.imp fun hno ht => hno (TransGen.mono (fun _ _ => hun.waits_of) _ _ ht)

/-- A blocked vertex off the stack is on no circuit through the stack. -/
lemma Searching.no_circuit :
    ∀ (q : List Nat) (w : Nat), s.blocked w → (s.stack ++ w :: q).Nodup →
      ¬ (w :: q ++ [c.currentVertex]).IsChain c.Adj := by
  intro q
  induction q with
  | nil =>
    intro w hb hnodup hchain
    have hw : w ∉ s.stack := fun hmem =>
      (nodup_append.mp hnodup).2.2 w hmem w mem_cons_self rfl
    have hadj : c.Adj w c.currentVertex := by simpa using hchain
    exact (h.parked w hw hb _ hadj).1 rfl
  | cons x q ih =>
    intro w hb hnodup hchain
    have hw : w ∉ s.stack := fun hmem =>
      (nodup_append.mp hnodup).2.2 w hmem w mem_cons_self rfl
    rw [cons_append, cons_append, isChain_cons_cons] at hchain
    refine ih x (h.parked w hw hb x hchain.1).2.1 ?_ hchain.2
    exact hnodup.sublist ((List.Sublist.refl _).append (sublist_cons_self _ _))

end

/-! ## Cutting a circuit -/

/-- The cut edges grow, by edges of the subgraph. -/
structure CutGrows (c : Search) (cut cut' : List Edge) : Prop where
  keeps : ∀ e ∈ cut, e ∈ cut'
  adds : ∀ e ∈ cut', e ∈ cut ∨ c.subgraph.HasEdge e.1 e.2

lemma CutGrows.refl (c : Search) (cut : List Edge) : CutGrows c cut cut :=
  ⟨fun _ h => h, fun _ h => .inl h⟩

lemma CutGrows.trans {cut'' : List Edge} (h : CutGrows c cut cut')
    (h' : CutGrows c cut' cut'') : CutGrows c cut cut'' :=
  ⟨fun e he => h'.keeps e (h.keeps e he), fun e he => (h'.adds e he).elim (h.adds e) Or.inr⟩

lemma considerEdges_spec (g : Graph) (cut : List Edge) :
    ∀ (es : List Edge) (considered : Nat) (minEdge : Edge) (minWeight : UInt64),
      considered < kMaxEdgesToConsider → (∀ e ∈ es, g.HasEdge e.1 e.2) →
      ∃ r, considerEdges g cut considered minEdge minWeight es = some r ∧
        (r = none → ∃ e ∈ es.take (kMaxEdgesToConsider - considered), e ∈ cut) ∧
        ∀ e, r = some e → e = minEdge ∨ e ∈ es.take (kMaxEdgesToConsider - considered) := by
  intro es
  induction es with
  | nil =>
    intro considered minEdge minWeight _ _
    exact ⟨some minEdge, rfl, nofun, fun e he => .inl (Option.some.inj he).symm⟩
  | cons e es ih =>
    intro considered minEdge minWeight hlt hes
    obtain ⟨k, hk⟩ := Nat.exists_eq_add_of_lt hlt
    have htake : (e :: es).take (kMaxEdgesToConsider - considered) =
        e :: es.take (kMaxEdgesToConsider - (considered + 1)) := by
      have h1 : kMaxEdgesToConsider - considered = k + 1 := by omega
      have h2 : kMaxEdgesToConsider - (considered + 1) = k := by omega
      rw [h1, h2, take_succ_cons]
    rw [htake]
    by_cases hcut : e ∈ cut
    · exact ⟨none, by simp [considerEdges, hcut], fun _ => ⟨e, mem_cons_self, hcut⟩, nofun⟩
    · obtain ⟨weight, hweight⟩ : ∃ weight, edgeWeight g e = some weight := by
        obtain ⟨p, hp⟩ := isSome_iff_exists.mp (hes e mem_cons_self).2.2
        exact ⟨_, by simp [edgeWeight, hp]; rfl⟩
      simp only [considerEdges, hcut, hweight, bind_some]
      generalize hb : (if weight < minWeight then (e, weight) else (minEdge, minWeight)) = best
      have hbest : best.1 = minEdge ∨
          best.1 ∈ e :: es.take (kMaxEdgesToConsider - (considered + 1)) := by
        rw [← hb]
        split
        · exact .inr mem_cons_self
        · exact .inl rfl
      by_cases hlast : considered + 1 = kMaxEdgesToConsider
      · rw [if_pos hlast]
        exact ⟨_, rfl, nofun, fun e' he' => Option.some.inj he' ▸ hbest⟩
      · rw [if_neg hlast]
        obtain ⟨r, hr, hnone, hsome⟩ := ih (considered + 1) best.1 best.2 (by omega)
          fun x hx => hes x (.tail _ hx)
        refine ⟨r, hr, fun h => ?_, fun e' he' => ?_⟩
        · obtain ⟨x, hx, hxcut⟩ := hnone h
          exact ⟨x, .tail _ hx, hxcut⟩
        · rcases hsome e' he' with heq | hmem
          · exact heq ▸ hbest
          · exact .inr (.tail _ hmem)

/-- `HandleCircuit` cuts the circuit at one of its first two edges, if none of them is
cut already. -/
lemma handleCircuit_spec (hwf : c.WellFormed) (h : Searching c s)
    (hlast : ∃ v ∈ s.stack.getLast?, c.Adj v c.currentVertex) :
    ∃ cut, handleCircuit c s = some { s with cutEdges := cut } ∧ CutGrows c s.cutEdges cut ∧
      ∃ e ∈ (walkEdges (s.stack ++ [c.currentVertex])).take 2, e ∈ cut := by
  obtain ⟨v, hv, hadj⟩ := hlast
  have hwalk : (s.stack ++ [c.currentVertex]).IsChain c.Adj := by
    refine isChain_append.mpr ⟨h.walk, .singleton _, fun a ha b hb => ?_⟩
    obtain rfl : b = c.currentVertex := by simpa using hb.symm
    rwa [mem_unique ha hv]
  have hedges : ∀ e ∈ walkEdges (s.stack ++ [c.currentVertex]), c.subgraph.HasEdge e.1 e.2 := by
    refine forall_mem_walkEdges (hwf.isChain hwalk fun x hx => ?_)
    rcases mem_append.mp hx with hx | hx
    · exact h.inside x (h.onStack x hx)
    · rw [mem_singleton.mp hx]
      exact .refl
  obtain ⟨e, es, hees⟩ : ∃ e es, walkEdges (s.stack ++ [c.currentVertex]) = e :: es := by
    cases hs : s.stack with
    | nil => simp [hs] at hv
    | cons a l => cases l <;> exact ⟨_, _, rfl⟩
  unfold handleCircuit
  rw [hees] at hedges ⊢
  obtain ⟨r, hr, hnone, hsome⟩ :=
    considerEdges_spec c.subgraph s.cutEdges (e :: es) 0 e 0xFFFFFFFFFFFFFFFF (by decide) hedges
  dsimp only
  rw [hr]
  cases r with
  | none =>
    obtain ⟨x, hx, hcut⟩ := hnone rfl
    exact ⟨s.cutEdges, rfl, .refl c _, x, hx, hcut⟩
  | some x =>
    have hx : x ∈ (e :: es).take 2 := by
      rcases hsome x rfl with rfl | hmem
      · exact mem_cons_self
      · exact hmem
    refine ⟨insertKey edgeLe x s.cutEdges, rfl, ⟨fun y hy => mem_insertKey.mpr (.inr hy),
      fun y hy => ?_⟩, x, hx, mem_insertKey.mpr (.inl rfl)⟩
    rcases mem_insertKey.mp hy with rfl | hy
    · exact .inr (hedges y (mem_of_mem_take hx))
    · exact .inl hy

/-! ## The search -/

/-- The circuits that begin with the walk `l` and go on as `q`. -/
structure Closes (c : Search) (l q : List Nat) : Prop where
  nodup : (l ++ q).Nodup
  walk : (l ++ q ++ [c.currentVertex]).IsChain c.Adj

/-- The circuit `l ++ q` has a cut edge. -/
def HasCut (c : Search) (l q : List Nat) (cut : List Edge) : Prop :=
  ∃ e ∈ walkEdges (l ++ q ++ [c.currentVertex]), e ∈ cut

/-- One of the first two edges of the walk is cut, if there are two. -/
def HeadCut (l : List Nat) (cut : List Edge) : Prop :=
  3 ≤ l.length → ∃ e ∈ (walkEdges l).take 2, e ∈ cut

/-- What a call of `Circuit` for `v` does. -/
structure Circled (c : Search) (v : Nat) (found : Bool) (s s' : Breaker) : Prop where
  searching : Searching c s'
  stack : s'.stack = s.stack
  cut : CutGrows c s.cutEdges s'.cutEdges
  notFound : found = false → (∀ x, s.blocked x = true → s'.blocked x = true) ∧ s'.blocked v = true
  headCut : found = true → HeadCut (s.stack ++ [v]) s'.cutEdges
  covered : ∀ q, Closes c (s.stack ++ [v]) q → HasCut c (s.stack ++ [v]) q s'.cutEdges

/-- The loop of `Circuit` over the edges of `v`, started in `s₀`; `rest` are the edges
still to follow. -/
structure Following (c : Search) (v : Nat) (s₀ : Breaker) (rest : List Nat) (found : Bool)
    (s : Breaker) : Prop where
  searching : Searching c s
  stack : s.stack = s₀.stack
  cut : CutGrows c s₀.cutEdges s.cutEdges
  notFound : found = false → (∀ x, s₀.blocked x = true → s.blocked x = true) ∧
    ∀ w, c.Adj v w → w ∉ rest → w ≠ c.currentVertex ∧ s.blocked w = true
  headCut : found = true → HeadCut s₀.stack s.cutEdges
  covered : ∀ q, Closes c s₀.stack q →
    (∀ w ∈ (q ++ [c.currentVertex]).head?, w ∉ rest) → HasCut c s₀.stack q s.cutEdges

variable {l : List Nat}

lemma HasCut.mono {q : List Nat} (h : HasCut c l q cut)
    (hcut : CutGrows c cut cut') : HasCut c l q cut' := by
  obtain ⟨e, he, hmem⟩ := h
  exact ⟨e, he, hcut.keeps e hmem⟩

lemma HeadCut.mono (h : HeadCut l cut) (hcut : CutGrows c cut cut') : HeadCut l cut' := by
  intro hlen
  obtain ⟨e, he, hmem⟩ := h hlen
  exact ⟨e, he, hcut.keeps e hmem⟩

/-- The first edges of a longer walk are those of the walk. -/
lemma HeadCut.of_append {r : List Nat}
    (h : 3 ≤ l.length → ∃ e ∈ (walkEdges (l ++ r)).take 2, e ∈ cut) : HeadCut l cut := by
  intro hlen
  obtain ⟨e, he, hmem⟩ := h hlen
  exact ⟨e, walkEdges_take_append hlen r ▸ he, hmem⟩

section

variable {s₀ : Breaker} {w : Nat} {ws : List Nat} {found : Bool}

section

variable (h : Following c v s₀ (w :: ws) found s)

include h

/-- A circuit's next vertex is among the edges left, or it is the one just followed. -/
lemma Following.covered_cons (hcut : CutGrows c s.cutEdges cut)
    (hw : ∀ q, Closes c s₀.stack q → (q ++ [c.currentVertex]).head? = some w →
      HasCut c s₀.stack q cut) :
    ∀ q, Closes c s₀.stack q → (∀ w ∈ (q ++ [c.currentVertex]).head?, w ∉ ws) →
      HasCut c s₀.stack q cut := by
  intro q hq hnot
  by_cases hhead : (q ++ [c.currentVertex]).head? = some w
  · exact hw q hq hhead
  · refine (h.covered q hq fun x hx hmem => ?_).mono hcut
    rcases mem_cons.mp hmem with rfl | hmem
    · exact hhead hx
    · exact hnot x hx hmem

/-- An edge back to the current vertex. -/
lemma Following.close (hwf : c.WellFormed)
    (hlast : s₀.stack.getLast? = some v) (hadj : c.Adj v w) (hw : w = c.currentVertex) :
    ∃ s', handleCircuit c s = some s' ∧ Following c v s₀ ws true s' := by
  subst hw
  obtain ⟨cut, hs', hgrows, hedge⟩ := handleCircuit_spec hwf h.searching
    ⟨v, by rw [h.stack, hlast]; rfl, hadj⟩
  rw [h.stack] at hedge
  refine ⟨_, hs', ⟨h.searching.nodup, h.searching.walk, h.searching.starts, h.searching.inside,
    h.searching.onStack, h.searching.parked, h.searching.waits, h.searching.apart⟩, h.stack,
    h.cut.trans hgrows, nofun, fun _ => .of_append fun _ => hedge,
    h.covered_cons hgrows fun q hq hhead => ?_⟩
  -- the circuit closes here: the current vertex is on the stack already
  cases q with
  | nil =>
    obtain ⟨e, he, hmem⟩ := hedge
    exact ⟨e, by simpa using mem_of_mem_take he, hmem⟩
  | cons x q =>
    obtain rfl : x = c.currentVertex := by simpa using hhead
    have hmem : c.currentVertex ∈ s₀.stack := by
      cases hs : s₀.stack with
      | nil => simp [hs] at hlast
      | cons y ys =>
        have := h.searching.starts y (by simp [h.stack, hs])
        simp [this]
    exact absurd rfl
      ((nodup_append.mp hq.nodup).2.2 _ hmem _ mem_cons_self)

/-- An edge to a blocked vertex. -/
lemma Following.skip (hw : w ≠ c.currentVertex)
    (hb : s.blocked w) : Following c v s₀ ws found s := by
  refine { h with
    notFound := fun hf => ⟨(h.notFound hf).1, fun x hx hnot => ?_⟩
    covered := h.covered_cons (.refl c _) fun q hq hhead => ?_ }
  · by_cases hxw : x = w
    · exact hxw ▸ ⟨hw, hb⟩
    · exact (h.notFound hf).2 x hx (by simp [hxw, hnot])
  · cases q with
    | nil => exact absurd (by simpa using hhead) hw.symm
    | cons x q =>
      obtain rfl : x = w := by simpa using hhead
      have hnodup := hq.nodup
      have hwalk := hq.walk
      rw [← h.stack] at hnodup
      rw [append_assoc] at hwalk
      exact absurd (isChain_append.mp hwalk).2.1
        (h.searching.no_circuit q x hb hnodup)

/-- An edge to a vertex that is not blocked: the call for it has ended. -/
lemma Following.call {f : Bool} (hw : w ≠ c.currentVertex) (hcall : Circled c w f s s') :
    Following c v s₀ ws (found || f) s' := by
  refine ⟨hcall.searching, hcall.stack.trans h.stack, h.cut.trans hcall.cut, fun hf => ?_,
    fun hf => ?_, h.covered_cons hcall.cut fun q hq hhead => ?_⟩
  · obtain ⟨hfound, hcallFound⟩ := Bool.or_eq_false_iff.mp hf
    obtain ⟨hkeep, hbw⟩ := hcall.notFound hcallFound
    refine ⟨fun x hx => hkeep x ((h.notFound hfound).1 x hx), fun x hx hnot => ?_⟩
    by_cases hxw : x = w
    · exact hxw ▸ ⟨hw, hbw⟩
    · obtain ⟨hne, hb⟩ := (h.notFound hfound).2 x hx (by simp [hxw, hnot])
      exact ⟨hne, hkeep x hb⟩
  · rcases (Bool.or_eq_true_iff.mp hf) with hf | hf
    · exact (h.headCut hf).mono hcall.cut
    · have hhead := hcall.headCut hf
      rw [h.stack] at hhead
      exact .of_append fun hlen => hhead (by simp; omega)
  · cases q with
    | nil => exact absurd (by simpa using hhead) hw.symm
    | cons x q =>
      obtain rfl : x = w := by simpa using hhead
      have hcov := hcall.covered q
      rw [h.stack] at hcov
      have hassoc : s₀.stack ++ [x] ++ q = s₀.stack ++ x :: q := by simp
      obtain ⟨e, he, hmem⟩ := hcov ⟨hassoc ▸ hq.nodup, hassoc ▸ hq.walk⟩
      exact ⟨e, hassoc ▸ he, hmem⟩

end

/-- Giving up the rest of the edges, when the walk has a cut edge. -/
lemma Following.stop (h : Following c v s₀ ws true s) {e : Edge}
    (he : e ∈ walkEdges s₀.stack) (hcut : e ∈ s.cutEdges) : Following c v s₀ [] true s :=
  { h with
    notFound := nofun
    covered := fun q _ _ =>
      ⟨e, by rw [List.append_assoc]; exact mem_walkEdges_append he _, hcut⟩ }

/-- What the recursive call is relied on for, with `fuel` levels left. -/
def CircuitSpec (c : Search) (fuel : Nat)
    (rec : Nat → Nat → Breaker → Option (Bool × Breaker)) : Prop :=
  ∀ v s, Searching c s → s.blocked v = false → Extends c s.stack v →
    c.subgraph.size ≤ s.stack.length + fuel →
    ∃ r, rec v s.stack.length s = some r ∧ Circled c v r.1 s r.2

lemma circuitLoop_spec {rec : Nat → Nat → Breaker → Option (Bool × Breaker)} {fuel depth : Nat}
    (hwf : c.WellFormed) (hrec : CircuitSpec c fuel rec)
    (hlast : s₀.stack.getLast? = some v) (hdepth : s₀.stack.length = depth + 1)
    (hfuel : c.subgraph.size ≤ s₀.stack.length + fuel) :
    ∀ (ws : List Nat) (found : Bool) (s : Breaker), Following c v s₀ ws found s →
      (∀ w ∈ ws, c.Adj v w) →
      ∃ r, circuitLoop c rec depth ws found s = some r ∧ Following c v s₀ [] r.1 r.2 := by
  intro ws
  induction ws with
  | nil => exact fun found s h _ => ⟨(found, s), rfl, h⟩
  | cons w ws ih =>
    intro found s h hws
    have hadj : c.Adj v w := hws w mem_cons_self
    have htail : ∀ x ∈ ws, c.Adj v x := fun x hx => hws x (.tail _ hx)
    by_cases hw : w = c.currentVertex
    · obtain ⟨s', hs', hnext⟩ := h.close hwf hlast hadj hw
      obtain ⟨r, hr, hend⟩ := ih true s' hnext htail
      exact ⟨r, by simp only [circuitLoop, if_pos hw, hs', bind_some, hr], hend⟩
    by_cases hb : s.blocked w
    · obtain ⟨r, hr, hend⟩ := ih found s (h.skip hw hb) htail
      exact ⟨r, by simp only [circuitLoop, if_neg hw, if_pos hb, hr], hend⟩
    obtain ⟨⟨f, s'⟩, hs', hcall⟩ := hrec w s h.searching (Bool.eq_false_of_not_eq_true hb)
      (.inr ⟨hw, v, by rw [h.stack, hlast]; rfl, hadj⟩) (by rw [h.stack]; exact hfuel)
    rw [h.stack, hdepth] at hs'
    have hnext := h.call hw hcall
    simp only [circuitLoop, if_neg hw, if_neg hb, hs', bind_some]
    cases f with
    | false =>
      rw [Bool.or_false] at hnext
      exact ih found s' hnext htail
    | true =>
      rw [Bool.or_true] at hnext
      by_cases hstop : (decide (depth > kMaxEdgesToConsider) || s'.stackContainsCutEdge)
      · rw [if_pos hstop]
        -- the path has a cut edge in both cases
        have hcut : ∃ e ∈ walkEdges s₀.stack, e ∈ s'.cutEdges := by
          rcases Bool.or_eq_true_iff.mp hstop with hdeep | hcontains
          · have hlen : 3 ≤ s₀.stack.length := by
              have := of_decide_eq_true hdeep
              simp only [kMaxEdgesToConsider] at this
              omega
            obtain ⟨e, he, hmem⟩ := hnext.headCut rfl hlen
            exact ⟨e, mem_of_mem_take he, hmem⟩
          · obtain ⟨e, he, hmem⟩ := any_eq_true.mp hcontains
            exact ⟨e, hnext.stack ▸ he, of_decide_eq_true hmem⟩
        obtain ⟨e, he, hmem⟩ := hcut
        exact ⟨(true, s'), rfl, hnext.stop he hmem⟩
      · rw [if_neg hstop]
        exact ih true s' hnext htail

end

/-- The loop starts with nothing followed. -/
lemma Following.start (h : Searching c s) (hlast : s.stack.getLast? = some v) :
    Following c v s (c.subgraphEdges v) false s := by
  refine ⟨h, rfl, .refl c _, fun _ => ⟨fun _ hx => hx, fun w hw hnot => absurd hw hnot⟩, nofun,
    fun q hq hnot => ?_⟩
  -- the next vertex of a circuit is an edge of `v`
  obtain ⟨w, hw⟩ : ∃ w, (q ++ [c.currentVertex]).head? = some w := by
    cases q <;> exact ⟨_, rfl⟩
  have hwalk := hq.walk
  rw [append_assoc] at hwalk
  exact absurd ((isChain_append.mp hwalk).2.2 v hlast w hw) (hnot w hw)

/-- The end of a call. -/
lemma leave_spec {found : Bool} (hwf : c.WellFormed) (hst : s'.stack = s.stack ++ [v])
    (h : Following c v (s.push v) [] found s') :
    ∃ r, leave c v found s' = some r ∧ Circled c v r.1 s r.2 := by
  have hkeep : ∀ x, s.blocked x → (s.push v).blocked x :=
    fun x hx => push_blocked.mpr (.inr hx)
  have hcovered : ∀ q, Closes c (s.stack ++ [v]) q →
      HasCut c (s.stack ++ [v]) q s'.cutEdges := fun q hq => h.covered q hq fun _ _ => nofun
  cases found with
  | false =>
    obtain ⟨hblocked, hout⟩ := h.notFound rfl
    refine ⟨(false, { s'.park v (c.subgraphEdges v) with stack := s.stack }), ?_, ?_⟩
    · simp [leave, park, hst]
    · exact ⟨h.searching.pop_parked hst fun w hw => hout w hw not_mem_nil, rfl, h.cut,
        fun _ => ⟨fun x hx => hblocked x (hkeep x hx), hblocked v (push_blocked.mpr (.inl rfl))⟩,
        nofun, hcovered⟩
  | true =>
    have hv : s'.blocked v := h.searching.onStack v (by simp [hst])
    have hlt : ∀ x, s'.blocked x → x < c.subgraph.size :=
      fun x hx => hwf.lt (h.searching.inside x hx)
    have hcard : ((s'.setBlocked v false).blockedSet c.subgraph.size).card < c.subgraph.size :=
      calc ((s'.setBlocked v false).blockedSet c.subgraph.size).card
          < (s'.blockedSet c.subgraph.size).card := card_blockedSet_lt (hlt v hv) hv
        _ ≤ (Finset.range c.subgraph.size).card := Finset.card_filter_le _ _
        _ = c.subgraph.size := Finset.card_range _
    obtain ⟨s'', hs'', hun⟩ := unblock_spec c.subgraph.size c.subgraph.size s'.Waits v s'
      (fun _ _ hw => hw) hlt hv hcard
    refine ⟨(true, { s'' with stack := s.stack }), ?_, ?_⟩
    · simp [leave, hs'', hun.stack, hst]
    · have hcut : s''.cutEdges = s'.cutEdges := hun.cutEdges
      refine ⟨h.searching.pop_unblocked hst hun, rfl, ?_, nofun, fun _ => ?_, ?_⟩
      · rw [hcut]
        exact h.cut
      · rw [hcut]
        exact h.headCut rfl
      · rw [hcut]
        exact hcovered

/-- `Circuit` ends, and after it every circuit through the path has a cut edge. -/
lemma circuit_spec (hwf : c.WellFormed) : ∀ fuel, CircuitSpec c fuel (circuit c fuel) := by
  intro fuel
  induction fuel with
  | zero =>
    intro v s h hfree hext hfuel
    -- a stack as long as the graph leaves no vertex to go to
    have hpush := h.push hfree hext
    have hlt : ∀ x ∈ (s.push v).stack, x < c.subgraph.size :=
      fun x hx => hwf.lt (hpush.inside x (hpush.onStack x hx))
    have hlen : (s.push v).stack.length ≤ c.subgraph.size := by
      have := List.Subperm.length_le (subperm_of_subset hpush.nodup
        fun x hx => mem_range.mpr (hlt x hx))
      simpa using this
    simp [push] at hlen
    omega
  | succ fuel ih =>
    intro v s h hfree hext hfuel
    have hpush := h.push hfree hext
    have hlast : (s.push v).stack.getLast? = some v := by simp [push]
    obtain ⟨r, hr, hend⟩ := circuitLoop_spec hwf ih hlast
      (by simp [push] : (s.push v).stack.length = s.stack.length + 1)
      (by simp [push]; omega) (c.subgraphEdges v) false (s.push v)
      (Following.start hpush hlast) fun w hw => hw
    obtain ⟨r', hr', hcircled⟩ := leave_spec hwf hend.stack hend
    exact ⟨r', by simp only [circuit, hr, bind_some, hr'], hcircled⟩

end

end UpdateEngine
