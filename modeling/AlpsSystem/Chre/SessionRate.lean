import AlpsSystem.Chre.LocationSession

/-!
# The rate of the location session

The platform has one location session for all nanoapps.

* `run_served` — when no nanoapp gets locations less often than it has asked for.
-/

namespace Chre.Gnss

open Runs (EachStep Throughout throughout_of_inv)

open List

variable {s s' : State} {instanceId i minInterval errorCode : Nat} {enable success enabled : Bool}
  {answers : List Bool}

/-! ## The list of session requests -/

/-- At rest, the interval of the platform is short enough for every session request. -/
def State.Served (s : State) : Prop :=
  s.fatal = false → s.transitions = [] → s.requests ≠ [] →
    ∀ r ∈ s.requests, s.currentInterval ≤ r.minInterval

/-- The invariant of the manager: the interval is short enough, a nanoapp has one request and
those that wait are loaded. -/
structure State.Paced (s : State) : Prop where
  fast : ∀ r ∈ s.requests, s.currentInterval ≤ r.minInterval
  unique : (s.requests.map LocationSessionRequest.nanoappInstanceId).Nodup
  loaded : ∀ t ∈ s.transitions, (s.findNanoappByInstanceId t.nanoappInstanceId).isSome

lemma requestIndex_spec (h : s.requestIndex instanceId = some i) :
    ∃ r, s.requests[i]? = some r ∧ r.nanoappInstanceId = instanceId := by
  obtain ⟨hi, hid, -⟩ := List.findIdx?_eq_some_iff_getElem.mp h
  exact ⟨s.requests[i], List.getElem?_eq_getElem hi, beq_iff_eq.mp hid⟩

/-- The nanoapp's requests are at its index. -/
lemma requestIndex_ne (hunique : (s.requests.map (·.nanoappInstanceId)).Nodup)
    {j : Nat} (h : s.requestIndex instanceId = some i) (hij : j ≠ i)
    {r : LocationSessionRequest} (hr : s.requests[j]? = some r) :
    r.nanoappInstanceId ≠ instanceId := by
  intro hid
  obtain ⟨r', hr', hid'⟩ := requestIndex_spec h
  have hj : (s.requests.map (·.nanoappInstanceId))[j]? = some instanceId := by
    rw [List.getElem?_map, hr, Option.map_some, hid]
  have hi : (s.requests.map (·.nanoappInstanceId))[i]? = some instanceId := by
    rw [List.getElem?_map, hr', Option.map_some, hid']
  have hlt := (List.getElem?_eq_some_iff.mp hj).1
  exact hij ((List.getElem?_inj hlt hunique).mp (hj.trans hi.symm))

open State

/-- What a successful change of the requests stores: the nanoapp's new interval, and the
requests of the others. -/
lemma update_requests (hunique : (s.requests.map (·.nanoappInstanceId)).Nodup)
    (hloaded : (s.findNanoappByInstanceId instanceId).isSome)
    (h : s.updateLocationSessionRequests enable minInterval instanceId = (true, s')) :
    (∀ r ∈ s'.requests, (enable = true ∧ r = ⟨instanceId, minInterval⟩) ∨
        (r ∈ s.requests ∧ r.nanoappInstanceId ≠ instanceId)) ∧
      (s'.requests.map (·.nanoappInstanceId)).Nodup := by
  obtain ⟨app, happ⟩ := Option.isSome_iff_exists.mp hloaded
  unfold updateLocationSessionRequests at h
  rw [happ] at h
  cases hindex : s.requestIndex instanceId with
  | none =>
    have hnew : ∀ r ∈ s.requests, r.nanoappInstanceId ≠ instanceId := by
      intro r hr hid
      have hnone := List.findIdx?_eq_none_iff.mp hindex r hr
      rw [hid, beq_self_eq_true] at hnone
      cases hnone
    rw [hindex] at h
    cases enable with
    | false => cases h
    | true =>
      dsimp only at h
      split at h
      · cases h
      · cases h
        constructor
        · intro r hr
          rcases mem_append.mp hr with hold | hnew'
          · exact .inr ⟨hold, hnew r hold⟩
          · exact .inl ⟨rfl, mem_singleton.mp hnew'⟩
        · rw [map_append]
          refine nodup_append.mpr ⟨hunique, by simp, ?_⟩
          intro a ha b hb hab
          obtain ⟨r, hr, rfl⟩ := mem_map.mp ha
          rw [map_singleton, mem_singleton] at hb
          exact hnew r hr (hab.trans hb)
  | some i =>
    rw [hindex] at h
    cases enable with
    | false =>
      cases h
      constructor
      · intro r hr
        obtain ⟨j, hij, hj⟩ := mem_eraseIdx_iff_getElem?.mp hr
        exact .inr ⟨mem_of_getElem? hj, requestIndex_ne hunique hindex hij hj⟩
      · exact hunique.sublist ((eraseIdx_sublist _ _).map _)
    | true =>
      cases h
      constructor
      · intro r hr
        obtain ⟨j, hj⟩ := mem_iff_getElem?.mp hr
        rw [List.getElem?_modify] at hj
        by_cases hij : i = j
        · obtain ⟨r0, hr0, hid⟩ := requestIndex_spec hindex
          subst hij
          simp only [if_pos, hr0, Option.map_eq_map, Option.map_some, Option.some.injEq] at hj
          exact .inl ⟨rfl, by rw [← hj, hid]⟩
        · have hj' : s.requests[j]? = some r := by simpa [hij] using hj
          exact .inr ⟨mem_of_getElem? hj', requestIndex_ne hunique hindex (Ne.symm hij) hj'⟩
      · have hids : (s.requests.modify i fun r => { r with minInterval }).map
            (·.nanoappInstanceId) = s.requests.map (·.nanoappInstanceId) := by
          refine ext_getElem? fun j => ?_
          by_cases hij : i = j
          · simp [hij, Function.comp_def]
          · simp [hij]
        rw [hids]
        exact hunique

lemma update_loaded (enable : Bool) (minInterval instanceId id : Nat) :
    ((s.updateLocationSessionRequests enable minInterval instanceId).2.findNanoappByInstanceId
      id).isSome = (s.findNanoappByInstanceId id).isSome := by
  unfold updateLocationSessionRequests
  split
  · rfl
  · split
    · rfl
    · split
      · rfl
      · exact lookup_updateApp (fun app => app.registerForBroadcastEvent_instanceId _) _ _ _
    · rfl
    · exact lookup_updateApp (fun app => app.unregisterForBroadcastEvent_instanceId _) _ _ _

lemma update_failed
    (h : s.updateLocationSessionRequests enable minInterval instanceId = (false, s')) : s' = s := by
  unfold updateLocationSessionRequests at h
  split at h
  · cases h
  · split at h
    · cases h
    · split at h <;> cases h
      rfl
    · cases h
      rfl
    · cases h

/-! ## One answer to one request -/

section

variable (hqueue : ∀ t ∈ s.transitions, (s.findNanoappByInstanceId t.nanoappInstanceId).isSome)

include hqueue

/-- The request of a nanoapp is answered.  The interval suits the other nanoapps, and the
nanoapp itself if it keeps or gets a request. -/
lemma post_paced (hunique : (s.requests.map (·.nanoappInstanceId)).Nodup) {cookie : Nat} {ok : Bool}
    (hloaded : (s.findNanoappByInstanceId instanceId).isSome)
    (hothers : ∀ r ∈ s.requests,
      s.currentInterval ≤ r.minInterval ∨ (success ∧ r.nanoappInstanceId = instanceId))
    (hown : success → enable → s.currentInterval ≤ minInterval)
    (h : s.postLocationSessionAsyncResultEvent instanceId success enable minInterval errorCode
      cookie = (ok, s')) (hok : ok) :
    s'.Paced ∧
      ∀ id, (s'.findNanoappByInstanceId id).isSome = (s.findNanoappByInstanceId id).isSome := by
  subst hok
  unfold postLocationSessionAsyncResultEvent at h
  cases success with
  | false =>
    cases h
    exact ⟨⟨fun r hr => (hothers r hr).resolve_right nofun, hunique, hqueue⟩, fun _ => rfl⟩
  | true =>
    have hcontrol := update_control (s := s) enable minInterval instanceId
    have hfind := update_loaded (s := s) enable minInterval instanceId
    rcases hupdate : s.updateLocationSessionRequests enable minInterval instanceId with ⟨done, s1⟩
    rw [hupdate] at h hcontrol hfind
    cases done with
    | false => cases h
    | true =>
      cases h
      obtain ⟨hrequests, hunique1⟩ := update_requests hunique hloaded hupdate
      obtain ⟨htrans, -, -, hcurrent⟩ := control_eq hcontrol
      refine ⟨⟨?_, hunique1, ?_⟩, hfind⟩
      · intro r hr
        show s1.currentInterval ≤ r.minInterval
        rw [hcurrent]
        rcases hrequests r hr with ⟨henable, rfl⟩ | ⟨hold, hid⟩
        · exact hown rfl henable
        · exact (hothers r hold).resolve_right fun h => hid h.2
      · intro t ht
        show (s1.findNanoappByInstanceId t.nanoappInstanceId).isSome
        rw [hfind]
        exact hqueue t (htrans ▸ ht)

lemma postFatal_paced (hunique : (s.requests.map (·.nanoappInstanceId)).Nodup) {t : Transition}
    (hloaded : (s.findNanoappByInstanceId t.nanoappInstanceId).isSome)
    (hothers : ∀ r ∈ s.requests, s.currentInterval ≤ r.minInterval ∨
      (success ∧ r.nanoappInstanceId = t.nanoappInstanceId))
    (hown : success = true → t.enable → s.currentInterval ≤ t.minInterval)
    (h : s.postFatal t success errorCode = some s') :
    s'.Paced ∧
      ∀ id, (s'.findNanoappByInstanceId id).isSome = (s.findNanoappByInstanceId id).isSome := by
  unfold postFatal at h
  split at h
  · cases h
  · cases h
    exact post_paced hqueue hunique hloaded hothers hown ‹_› rfl

end

/-- A start request that needs no transition has an interval that the session meets. -/
lemma slow_of_not_required {requestIndex : Option Nat}
    (h : ¬ s.locationSessionStateTransitionIsRequired true minInterval requestIndex) :
    s.currentInterval ≤ minInterval := by
  unfold locationSessionStateTransitionIsRequired at h
  cases hen : s.locationSessionIsEnabled <;> simp_all

/-! ## The queue -/

lemma serveQueue_paced {ts : List Transition} : ∀ {answers : List Bool} {s s' : State}, s.Paced →
    (∀ t ∈ ts, (s.findNanoappByInstanceId t.nanoappInstanceId).isSome) →
    s.serveQueue errorCode ts answers = some s' → s'.Paced := by
  induction ts with
  | nil =>
    intro answers s s' h _ hserve
    cases hserve
    exact ⟨h.fast, h.unique, forall_mem_nil _⟩
  | cons t rest ih =>
    -- a request that is answered at once does not slow the session
    have hanswered : ∀ {answers : List Bool} {s s1 s' : State} {success : Bool} {code : Nat},
        s.Paced → (∀ t' ∈ t :: rest, (s.findNanoappByInstanceId t'.nanoappInstanceId).isSome) →
        (success → t.enable → s.currentInterval ≤ t.minInterval) →
        s.postFatal t success code = some s1 →
        s1.serveQueue errorCode rest answers = some s' → s'.Paced := by
      intro answers s s1 s' success code h hts hown hpost hserve
      obtain ⟨h1, hfind⟩ := postFatal_paced h.loaded h.unique (hts t mem_cons_self)
        (fun r hr => .inl (h.fast r hr)) hown hpost
      refine ih h1 (fun t' ht' => ?_) hserve
      rw [hfind]
      exact hts t' (mem_cons_of_mem t ht')
    intro answers s s' h hts hserve
    unfold serveQueue at hserve
    split at hserve
    case isTrue =>
      split at hserve
      · cases hserve
        exact ⟨h.fast, h.unique, hts⟩
      · obtain ⟨s1, hpost, hrest⟩ := Option.bind_eq_some_iff.mp hserve
        exact hanswered h hts (fun hfalse => absurd hfalse Bool.false_ne_true) hpost hrest
    case isFalse hrequired =>
      obtain ⟨s1, hpost, hrest⟩ := Option.bind_eq_some_iff.mp hserve
      refine hanswered h hts (fun _ henable => ?_) hpost hrest
      rw [henable] at hrequired
      exact slow_of_not_required hrequired

/-! ## Transitions at the platform -/

/-- `requestToDecreaseRate` lets a nanoapp slow the session down, although another one has asked for
a shorter interval. -/
def State.slowsOthers (s : State) (t : Transition) : Bool :=
  s.requestToDecreaseRate t.minInterval (s.requestIndex t.nanoappInstanceId) &&
    s.requests.any fun r =>
      r.nanoappInstanceId != t.nanoappInstanceId && decide (r.minInterval < t.minInterval)

/-- The platform has not been asked to slow the session down for others. -/
def State.pacesOthers (s : State) : Bool :=
  !s.outstanding || s.transitions.head?.all fun t => !s.slowsOthers t

/-- The platform reports success in the state it was asked for, or else for an interval that the
nanoapp's stored request allows. -/
def State.answeredAsAsked (s : State) (enabled : Bool) (errorCode : Nat) : Bool :=
  errorCode != errorNone || s.transitions.head?.all fun t => t.enable == enabled ||
    s.requests.all fun r =>
      r.nanoappInstanceId != t.nanoappInstanceId || decide (t.minInterval ≤ r.minInterval)

/-- An answer of the platform is as asked, and the next request that the loop over the queue hands
to the platform does not slow the session down for others. -/
def State.keepsPace (s : State) (event : Event) : Bool :=
  match event with
  | .statusChange enabled errorCode _ =>
    s.fatal || !s.outstanding || (s.answeredAsAsked enabled errorCode && (s.step event).pacesOthers)
  | _ => true

/-- The interval of `t` is short enough for all nanoapps but its own. -/
def State.Suits (s : State) (t : Transition) : Prop :=
  ∀ r ∈ s.requests, r.nanoappInstanceId ≠ t.nanoappInstanceId → t.minInterval ≤ r.minInterval

/-- While the platform has to answer, the first transition of the queue suits the others. -/
structure State.Fair (s : State) : Prop where
  paced : s.Paced
  handed : s.outstanding → ∃ t rest, s.transitions = t :: rest ∧ s.Suits t

/-- The one request there is belongs to the nanoapp. -/
lemma own_of_length_eq_one (hindex : (s.requestIndex instanceId).isSome)
    (hlength : s.requests.length = 1) : ∀ r ∈ s.requests, r.nanoappInstanceId = instanceId := by
  obtain ⟨i, hi⟩ := Option.isSome_iff_exists.mp hindex
  obtain ⟨r0, hr0, hid⟩ := requestIndex_spec hi
  obtain ⟨r1, hr1⟩ := length_eq_one_iff.mp hlength
  intro r hr
  have hmem := mem_of_getElem? hr0
  rw [hr1, mem_singleton] at hr hmem
  rw [hr, ← hmem, hid]

/-- A transition that is required suits the others, unless it is a decrease of the rate that slows
them down. -/
lemma suits_of_required {t : Transition}
    (hfast : ∀ r ∈ s.requests, s.currentInterval ≤ r.minInterval)
    (hrequired : s.locationSessionStateTransitionIsRequired t.enable t.minInterval
      (s.requestIndex t.nanoappInstanceId))
    (hpaces : s.slowsOthers t = false) : s.Suits t := by
  intro r hr hid
  unfold locationSessionStateTransitionIsRequired at hrequired
  simp only [Bool.or_eq_true, Bool.and_eq_true, decide_eq_true_eq, beq_iff_eq] at hrequired
  rcases hrequired with ((⟨-, hdisabled⟩ | ⟨⟨-, hindex⟩, hlength⟩) | ⟨-, hfaster⟩) | hdecrease
  · have hnil : s.requests = [] := by simpa [locationSessionIsEnabled] using hdisabled
    rw [hnil] at hr
    exact absurd hr not_mem_nil
  · exact absurd (own_of_length_eq_one hindex hlength r hr) hid
  · exact hfaster.le.trans (hfast r hr)
  · simp only [slowsOthers, hdecrease, Bool.true_and, any_eq_false, Bool.and_eq_true,
      bne_iff_ne, decide_eq_true_eq, not_and] at hpaces
    exact not_lt.mp (hpaces r hr hid)

/-- A request that is not met by the session as it is suits the others. -/
lemma suits_of_not_requested (hfast : ∀ r ∈ s.requests, s.currentInterval ≤ r.minInterval)
    (hnot : ¬ s.locationSessionIsInRequestedState enable minInterval
      (s.requestIndex instanceId).isSome) {cookie : Nat} :
    s.Suits ⟨instanceId, cookie, enable, minInterval⟩ := by
  intro r hr hid
  have henabled : s.locationSessionIsEnabled := by
    simpa [locationSessionIsEnabled] using ne_nil_of_mem hr
  unfold locationSessionIsInRequestedState at hnot
  rw [henabled] at hnot
  cases enable with
  | true =>
    simp only [beq_self_eq_true, Bool.not_true, Bool.false_or, Bool.true_and, Bool.false_and,
      Bool.or_false, decide_eq_true_eq, not_le] at hnot
    exact hnot.le.trans (hfast r hr)
  | false =>
    simp only [Bool.not_false, Bool.true_and, Bool.or_eq_true, Bool.not_eq_true', decide_eq_true_eq,
      not_or, Bool.not_eq_false, not_lt] at hnot
    have hlength := length_pos_of_mem hr
    exact absurd (own_of_length_eq_one hnot.2.1 (by omega) r hr) hid

/-- What the loop hands to the platform is required. -/
lemma serveQueue_required {ts : List Transition} : ∀ {answers : List Bool} {s s' : State},
    s.outstanding = false → s.serveQueue errorCode ts answers = some s' → s'.outstanding →
    ∃ t rest, s'.transitions = t :: rest ∧ s'.locationSessionStateTransitionIsRequired t.enable
      t.minInterval (s'.requestIndex t.nanoappInstanceId) := by
  induction ts with
  | nil =>
    intro answers s s' hout h hout'
    cases h
    exact absurd hout' (by simp [hout])
  | cons t rest ih =>
    intro answers s s' hout h hout'
    unfold serveQueue at h
    split at h
    case isTrue hrequired =>
      split at h
      · cases h
        exact ⟨t, rest, rfl, hrequired⟩
      · obtain ⟨s1, hpost, hrest⟩ := Option.bind_eq_some_iff.mp h
        exact ih ((control_eq (postFatal_control hpost)).2.1.trans hout) hrest hout'
    case isFalse =>
      obtain ⟨s1, hpost, hrest⟩ := Option.bind_eq_some_iff.mp h
      exact ih ((control_eq (postFatal_control hpost)).2.1.trans hout) hrest hout'

lemma handle_paced (h : s.Paced)
    (hfits : errorCode = errorNone → ∀ t ∈ s.transitions.head?, ∀ r ∈ s.requests,
      t.minInterval ≤ r.minInterval ∨
        (t.enable = enabled ∧ r.nanoappInstanceId = t.nanoappInstanceId))
    (hhandle : s.handleLocationSessionStatusChangeSync enabled errorCode answers = some s') :
    s'.Paced := by
  unfold handleLocationSessionStatusChangeSync at hhandle
  cases htrans : s.transitions with
  | nil =>
    rw [htrans] at hhandle
    cases hhandle
    exact h
  | cons t rest =>
    rw [htrans] at hhandle hfits
    obtain ⟨s1, hpost, hserve⟩ := Option.bind_eq_some_iff.mp hhandle
    have hqueue : ∀ t' ∈ t :: rest, (s.findNanoappByInstanceId t'.nanoappInstanceId).isSome :=
      fun t' ht' => h.loaded t' (htrans ▸ ht')
    suffices hs1 : s1.Paced ∧ ∀ id, (s1.findNanoappByInstanceId id).isSome =
        (s.findNanoappByInstanceId id).isSome by
      refine serveQueue_paced hs1.1 (fun t' ht' => ?_) hserve
      rw [hs1.2]
      exact hqueue t' (mem_cons_of_mem t ht')
    by_cases hsuccess : errorCode = errorNone
    · have hsuccess' : (errorCode == errorNone) := beq_iff_eq.mpr hsuccess
      rw [hsuccess'] at hpost
      refine postFatal_paced
        (s := { s with transitions := t :: rest, currentInterval := t.minInterval })
        hqueue h.unique (hqueue t mem_cons_self) (fun r hr => ?_) (fun _ _ => le_rfl) hpost
      exact (hfits hsuccess t rfl r hr).imp id fun h => ⟨beq_iff_eq.mpr h.1, h.2⟩
    · have hfailure : (errorCode == errorNone) = false := beq_eq_false_iff_ne.mpr hsuccess
      rw [hfailure] at hpost
      exact postFatal_paced h.loaded h.unique (hqueue t mem_cons_self)
        (fun r hr => .inl (h.fast r hr)) (fun hfalse : false => nomatch hfalse) hpost

/-! ## Runs -/

lemma answer_fair (h : s.Fair) (hout : s.outstanding)
    (hasked : s.answeredAsAsked enabled errorCode)
    (hpaces : (s.answer enabled errorCode answers).pacesOthers) :
    (s.answer enabled errorCode answers).Fair := by
  obtain ⟨t, rest, htrans, hsuits⟩ := h.handed hout
  unfold answer at hpaces ⊢
  rw [if_pos hout] at hpaces ⊢
  cases hhandle : handleLocationSessionStatusChangeSync { s with outstanding := false }
      enabled errorCode answers with
  | none => exact ⟨{ h.paced with }, fun _ => ⟨t, rest, htrans, hsuits⟩⟩
  | some s' =>
    rw [hhandle, Option.getD_some] at hpaces
    have hpaced : s'.Paced := by
      refine handle_paced (s := { s with outstanding := false }) { h.paced with }
        (fun hnone t' ht' r hr => ?_) hhandle
      obtain rfl : t = t' := by simpa [htrans] using ht'
      by_cases hid : r.nanoappInstanceId = t.nanoappInstanceId
      · simp only [answeredAsAsked, hnone, htrans, bne_self_eq_false, Bool.false_or, head?_cons,
          Option.all_some, Bool.or_eq_true, beq_iff_eq, all_eq_true] at hasked
        rcases hasked with henable | hown
        · exact .inr ⟨henable, hid⟩
        · exact .inl (by simpa [hid] using hown r hr)
      · exact .inl (hsuits r hr hid)
    refine ⟨hpaced, fun hout' => ?_⟩
    rw [Option.getD_some] at hout'
    unfold handleLocationSessionStatusChangeSync at hhandle
    dsimp only at hhandle
    rw [htrans] at hhandle
    obtain ⟨s1, hpost, hserve⟩ := Option.bind_eq_some_iff.mp hhandle
    have hout1 : s1.outstanding = false := by
      rw [(control_eq (postFatal_control hpost)).2.1]
      split <;> rfl
    obtain ⟨t', rest', htrans', hrequired⟩ := serveQueue_required hout1 hserve hout'
    refine ⟨t', rest', htrans', suits_of_required hpaced.fast hrequired ?_⟩
    simpa [pacesOthers, hout', htrans'] using hpaces

lemma configure_paced (h : s.Paced) (enable : Bool) (minInterval cookie : Nat) (accepts : Bool)
    (hloaded : (s.findNanoappByInstanceId instanceId).isSome) :
    (s.configureLocationSession instanceId enable minInterval cookie accepts).2.Paced := by
  have hadd : ∀ {s1 : State}, s.addLocationSessionRequestToQueue instanceId enable minInterval
      cookie = some s1 → s1.Paced ∧ (∀ i, (s1.removeTransition i).Paced) ∧
        State.Paced { s1 with outstanding := true } := by
    intro s1 hs1
    unfold addLocationSessionRequestToQueue at hs1
    split at hs1
    · cases hs1
      have hqueue : ∀ t ∈ s.transitions ++ [⟨instanceId, cookie, enable, minInterval⟩],
          (s.findNanoappByInstanceId t.nanoappInstanceId).isSome := by
        intro t ht
        rcases mem_append.mp ht with hold | hnew
        · exact h.loaded t hold
        · rw [mem_singleton.mp hnew]
          exact hloaded
      refine ⟨⟨h.fast, h.unique, hqueue⟩, fun i => ?_, ⟨h.fast, h.unique, hqueue⟩⟩
      unfold removeTransition
      split
      · exact ⟨h.fast, h.unique, fun t ht => hqueue t (mem_of_mem_eraseIdx ht)⟩
      · exact ⟨h.fast, h.unique, hqueue⟩
    · cases hs1
  unfold configureLocationSession
  dsimp only
  split
  · split
    case h_1 s1 hs1 => exact (hadd hs1).1
    case h_2 => exact h
  · split
    case isTrue hrequested =>
      rcases hpost : s.postLocationSessionAsyncResultEvent instanceId true enable minInterval
        errorNone cookie with ⟨ok, s1⟩
      cases ok with
      | true =>
        refine (post_paced h.loaded h.unique hloaded (fun r hr => .inl (h.fast r hr))
          (fun _ henable => ?_) hpost rfl).1
        subst henable
        unfold locationSessionIsInRequestedState at hrequested
        simp at hrequested
        exact hrequested.2
      | false =>
        have hs1 : s1 = s := by
          unfold postLocationSessionAsyncResultEvent at hpost
          rw [if_pos rfl] at hpost
          split at hpost
          · cases hpost
            exact update_failed ‹_›
          · cases hpost
        rw [hs1]
        exact h
    case isFalse =>
      split
      · split
        case h_1 s1 hs1 =>
          split
          · exact (hadd hs1).2.2
          · exact (hadd hs1).2.1 _
        case h_2 => exact h
      · exact h

/-- A nanoapp's request that goes to the platform at once suits the others. -/
lemma configure_fair (h : s.Fair) (enable : Bool) (minInterval cookie : Nat) (accepts : Bool)
    (hloaded : (s.findNanoappByInstanceId instanceId).isSome) :
    (s.configureLocationSession instanceId enable minInterval cookie accepts).2.Fair := by
  refine ⟨configure_paced h.paced enable minInterval cookie accepts hloaded, ?_⟩
  have hadd : ∀ {s1 : State}, s.addLocationSessionRequestToQueue instanceId enable minInterval
      cookie = some s1 →
      s1 = { s with
        transitions := s.transitions ++ [⟨instanceId, cookie, enable, minInterval⟩] } := by
    intro s1 hs1
    unfold addLocationSessionRequestToQueue at hs1
    split at hs1 <;> cases hs1
    rfl
  unfold configureLocationSession
  dsimp only
  split
  case isTrue =>
    split
    case h_1 s1 hs1 =>
      obtain rfl := hadd hs1
      intro hout
      obtain ⟨t, rest, htrans, hsuits⟩ := h.handed hout
      exact ⟨t, rest ++ [_], by rw [htrans, cons_append], hsuits⟩
    case h_2 => exact h.handed
  case isFalse hqueue =>
    have hnil : s.transitions = [] := by simpa using hqueue
    have hidle : ¬ s.outstanding := by
      intro hout
      obtain ⟨t, rest, htrans, -⟩ := h.handed hout
      rw [hnil] at htrans
      cases htrans
    split
    case isTrue =>
      rw [(control_eq (postResult_control _ _ _ _ _ _)).2.1]
      exact fun hout => absurd hout hidle
    case isFalse hnot =>
      split
      case isTrue =>
        split
        case h_1 s1 hs1 =>
          obtain rfl := hadd hs1
          split
          · exact fun _ => ⟨_, [], by rw [hnil]; rfl, suits_of_not_requested h.paced.fast hnot⟩
          · unfold removeTransition
            split <;> exact fun hout => absurd hout hidle
        case h_2 => exact fun hout => absurd hout hidle
      case isFalse => exact fun hout => absurd hout hidle

lemma step_fair (h : s.Fair) {e : Event} (hpace : s.keepsPace e) : (s.step e).Fair := by
  have hcall : ∀ {e : Event} {instanceId : Nat} {enable : Bool} {minInterval cookie : Nat}
      {accepts : Bool}, (s.call e = if (s.findNanoappByInstanceId instanceId).isSome then
        some (s.configureLocationSession instanceId enable minInterval cookie accepts) else none) →
      ((s.call e).elim s fun result => result.2).Fair := by
    intro e instanceId enable minInterval cookie accepts hcall
    rw [hcall]
    by_cases hloaded : (s.findNanoappByInstanceId instanceId).isSome
    · rw [if_pos hloaded]
      exact configure_fair h enable minInterval cookie accepts hloaded
    · rw [if_neg hloaded]
      exact h
  by_cases hfatal : s.fatal
  · unfold step
    rw [if_pos hfatal]
    exact h
  · cases e with
    | start | stop =>
      unfold step
      rw [if_neg hfatal]
      exact hcall rfl
    | statusChange enabled errorCode answers =>
      have hstep : s.step (.statusChange enabled errorCode answers) =
          s.answer enabled errorCode answers := if_neg hfatal
      by_cases hout : s.outstanding
      · simp only [keepsPace, hfatal, hout, hstep, Bool.not_true, Bool.false_or,
          Bool.and_eq_true] at hpace
        rw [hstep]
        exact answer_fair h hout hpace.1 hpace.2
      · rw [hstep, answer, if_neg hout]
        exact h

/-- **Rate.**  Throughout every run in which the platform answers as asked and the loop over the
queue does not slow the session down while another nanoapp has asked for a shorter interval, no
nanoapp gets locations less often than it has asked for. -/
theorem run_served (nanoapps : List Nanoapp) (events : List Event)
    (hpace : EachStep (fun s e => s.keepsPace e = true) State.step { nanoapps := nanoapps }
      events) :
    Throughout State.Served State.step { nanoapps := nanoapps } events := by
  have hinit : State.Fair { nanoapps := nanoapps } := ⟨⟨nofun, nodup_nil, nofun⟩, nofun⟩
  exact (throughout_of_inv (I := State.Fair) (fun _ _ h hok => step_fair h hok) events _ hinit
    hpace).mono fun _ h _ _ _ => h.paced.fast

/-- Nanoapp 2 makes the session of nanoapp 1 faster; while a faster request of nanoapp 3 fails, it
asks for a longer interval, but no longer than that of nanoapp 1. -/
def sampleRun : List Event :=
  [.start 1 1000 0 7 true, .statusChange true errorNone [], .start 2 500 0 8 true,
    .statusChange true errorNone [], .start 3 200 0 9 true, .start 2 900 0 8 true,
    .statusChange false errorGeneric [true], .statusChange true errorNone []]

theorem run_served_sampleRun :
    EachStep (fun s e => s.keepsPace e = true) State.step { nanoapps := sampleNanoapps }
        sampleRun ∧
      Throughout State.Served State.step { nanoapps := sampleNanoapps } sampleRun ∧
      (sampleRun.foldl State.step { nanoapps := sampleNanoapps }).requests =
        [⟨1, 1000⟩, ⟨2, 900⟩] := by
  have hpace : EachStep (fun s e => s.keepsPace e) step
      { nanoapps := sampleNanoapps } sampleRun := by
    decide
  exact ⟨hpace, run_served _ _ hpace, by decide⟩

/-- Nanoapps 1 and 2 have sessions when a request of nanoapp 3 fails, behind which a request
of nanoapp 1 has waited. -/
def slowedRun (request : Event) (enabled : Bool) : List Event :=
  [.start 1 1000 0 7 true, .statusChange true errorNone [], .start 2 1500 0 8 true,
    .start 3 500 0 9 true, request, .statusChange false errorGeneric [true],
    .statusChange enabled errorNone []]

/-- The session is slowed down to the new interval of nanoapp 1, which is too long for
nanoapp 2, and is ended when nanoapp 1 stops. -/
theorem slowed_for_others :
    let slowed := (slowedRun (.start 1 2000 0 7 true) true).foldl State.step
      { nanoapps := sampleNanoapps }
    let ended := (slowedRun (.stop 1 7 true) false).foldl State.step
      { nanoapps := sampleNanoapps }
    (¬ slowed.Served ∧ slowed.requests = [⟨1, 2000⟩, ⟨2, 1500⟩] ∧ slowed.currentInterval = 2000) ∧
      ¬ ended.Served ∧ ended.requests = [⟨2, 1500⟩] ∧ ended.currentInterval = uint64Max := by
  unfold State.Served
  decide

end Chre.Gnss
