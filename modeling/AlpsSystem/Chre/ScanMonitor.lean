import AlpsSystem.Chre.WifiRequestManager

/-!
# The scan monitor

What holds in every run of the Wi-Fi request manager: the monitor of the platform is on
while a nanoapp wants it, and every request that was taken is answered, once and in order.

* `scan_monitor_sound_iff` — a run is sound exactly when every request that is answered with
  success can be carried out.
-/

namespace Chre.Wifi

open Runs (EachStep)

open List

/-! ## What is claimed of a state -/

/-- Who made a request, and its cookie. -/
def Transition.key (t : Transition) : Nat × Nat := (t.nanoappInstanceId, t.cookie)

/-- The results of calls of `configureScanMonitor`, in the order of posting. -/
def State.monitorResults (s : State) : List (Nat × Nat) :=
  (s.posted.filter fun r => r.requestType == .configureScanMonitor).map fun r =>
    (r.target, r.cookie)

/-- No error was fatal; the calls that returned `true` are those with a result, in the same
order, and after them those that wait; if one waits, the platform is to answer; and if none
does, the monitor of the platform is on exactly when there are subscribers. -/
structure Sound (s : State) : Prop where
  noFatal : s.fatal = false
  answered : s.monitorResults ++ s.transitions.map Transition.key = s.accepted
  waiting : s.transitions ≠ [] → s.handling = none → s.outstanding = true
  monitor : s.transitions = [] → s.monitor = s.scanMonitorIsEnabled

/-- The nanoapp is registered for scan results. -/
def State.isRegistered (s : State) (instanceId : Nat) : Bool :=
  (s.findNanoappByInstanceId instanceId).any fun app =>
    app.isRegisteredForBroadcastEvent eventWifiScanResult

/-- The request can be carried out: the nanoapp has enabled the monitor, or it enables the
monitor and is not registered for scan results by a scan of its own. -/
def State.canServe (s : State) (t : Transition) : Bool :=
  s.nanoappHasScanMonitorRequest t.nanoappInstanceId ||
    (t.enable && !s.isRegistered t.nanoappInstanceId)

/-- A request that waited and is answered with success can be carried out. -/
def State.served (s : State) (event : Event) : Bool :=
  match event, s.handling, s.transitions with
  | .scanMonitorStateChange enabled errorCode, none, t :: _ =>
    !(s.outstanding && errorCode == errorNone && t.enable == enabled) || s.canServe t
  | .serveNext _, some (success, _), t :: _ =>
    !(success && s.scanMonitorIsInRequestedState t.enable
      (s.nanoappHasScanMonitorRequest t.nanoappInstanceId)) || s.canServe t
  | _, _, _ => true

/-- A platform that answers with an error does not report the state it was asked for. -/
def State.truthful (s : State) (event : Event) : Bool :=
  match event, s.transitions with
  | .scanMonitorStateChange enabled errorCode, t :: _ =>
    errorCode == errorNone || t.enable != enabled
  | _, _ => true

/-! ## What the helpers do -/

variable {s : State} {t : Transition}

/-- The subscribers after a request was carried out. -/
def subscribersAfter (subscribers : List Nat) (enable : Bool) (instanceId : Nat) : List Nat :=
  if enable then
    if subscribers.contains instanceId then subscribers else subscribers ++ [instanceId]
  else subscribers.erase instanceId

/-- The same nanoapps are loaded. -/
def SameLoaded (apps apps' : List Nanoapp) : Prop :=
  ∀ i, (lookupAppByInstanceId apps' i).isSome = (lookupAppByInstanceId apps i).isSome

lemma sameLoaded_register (apps : List Nanoapp) (i eventId : Nat) :
    SameLoaded apps (updateApp apps i fun app => (app.registerForBroadcastEvent eventId).2) :=
  lookup_updateApp (fun app => app.registerForBroadcastEvent_instanceId eventId) apps i

lemma sameLoaded_unregister (apps : List Nanoapp) (i eventId : Nat) :
    SameLoaded apps (updateApp apps i fun app => (app.unregisterForBroadcastEvent eventId).2) :=
  lookup_updateApp (fun app => app.unregisterForBroadcastEvent_instanceId eventId) apps i

open Bool State

/-- A request is carried out if it can be. -/
lemma update_eq (t : Transition)
    (hloaded : (s.findNanoappByInstanceId t.nanoappInstanceId).isSome = true) :
    (s.canServe t = false ∧
        s.updateNanoappScanMonitoringList t.enable t.nanoappInstanceId = (false, s)) ∨
      (s.canServe t = true ∧ ∃ apps, SameLoaded s.nanoapps apps ∧
        s.updateNanoappScanMonitoringList t.enable t.nanoappInstanceId = (true, { s with
            nanoapps := apps
            scanMonitorNanoapps :=
              subscribersAfter s.scanMonitorNanoapps t.enable t.nanoappInstanceId })) := by
  obtain ⟨app, happ⟩ := Option.isSome_iff_exists.mp hloaded
  have hreg : s.isRegistered t.nanoappInstanceId =
      app.isRegisteredForBroadcastEvent eventWifiScanResult := by
    unfold isRegistered
    rw [happ]
    rfl
  unfold updateNanoappScanMonitoringList canServe subscribersAfter
  rw [happ, hreg]
  dsimp only
  have hsame : SameLoaded s.nanoapps s.nanoapps := fun _ => rfl
  cases hhas : s.nanoappHasScanMonitorRequest t.nanoappInstanceId with
  | true =>
    have hcontains : s.scanMonitorNanoapps.contains t.nanoappInstanceId = true := hhas
    refine .inr ⟨rfl, ?_⟩
    cases t.enable with
    | true => exact ⟨s.nanoapps, hsame, by simp only [hcontains, if_true]⟩
    | false => exact ⟨_, sameLoaded_unregister _ _ _, rfl⟩
  | false =>
    have hcontains : s.scanMonitorNanoapps.contains t.nanoappInstanceId = false := hhas
    cases t.enable with
    | false => exact .inl ⟨rfl, rfl⟩
    | true =>
      unfold Nanoapp.registerForBroadcastEvent
      cases app.isRegisteredForBroadcastEvent eventWifiScanResult with
      | true => exact .inl ⟨rfl, rfl⟩
      | false =>
        refine .inr ⟨rfl, _, sameLoaded_register s.nanoapps t.nanoappInstanceId
          eventWifiScanResult, ?_⟩
        simp only [hcontains, Nanoapp.registerForBroadcastEvent, if_true, false_eq_true, if_false]

/-- The event that answers a request. -/
def Transition.result (t : Transition) (success : Bool) (errorCode : Nat) : AsyncResult :=
  { target := t.nanoappInstanceId, requestType := .configureScanMonitor, success := success
    errorCode := errorCode, cookie := t.cookie }

open Transition

/-- A request is answered, unless it should be carried out and cannot be. -/
lemma postFatal_eq (t : Transition) (success : Bool) (errorCode : Nat)
    (hloaded : (s.findNanoappByInstanceId t.nanoappInstanceId).isSome) :
    ((success && !s.canServe t) ∧ s.postScanMonitorAsyncResultEventFatal
        t.nanoappInstanceId success t.enable errorCode t.cookie = none) ∨
      ((success && !s.canServe t) = false ∧ ∃ apps, SameLoaded s.nanoapps apps ∧
        s.postScanMonitorAsyncResultEventFatal t.nanoappInstanceId success t.enable errorCode
            t.cookie =
          some { s with
            nanoapps := apps
            scanMonitorNanoapps :=
              if success then subscribersAfter s.scanMonitorNanoapps t.enable t.nanoappInstanceId
              else s.scanMonitorNanoapps
            posted := s.posted ++ [t.result success errorCode] }) := by
  unfold postScanMonitorAsyncResultEventFatal postScanMonitorAsyncResultEvent
  cases success with
  | false => exact .inr ⟨rfl, s.nanoapps, fun _ => rfl, rfl⟩
  | true =>
    rcases update_eq t hloaded with ⟨hcan, heq⟩ | ⟨hcan, apps, hsame, heq⟩
    · exact .inl ⟨by rw [hcan]; rfl, by simp [heq]⟩
    · exact .inr ⟨by rw [hcan]; rfl, apps, hsame, by simp [heq, post, result]⟩

/-! ## States of the monitor -/

/-- A request is in the requested state, or needs a transition; the third branch of the
callers is never taken. -/
lemma requested_eq_not_required (s : State) (enable has : Bool) :
    s.scanMonitorIsInRequestedState enable has =
      !s.scanMonitorStateTransitionIsRequired enable has := by
  unfold scanMonitorIsInRequestedState scanMonitorStateTransitionIsRequired
    scanMonitorIsEnabled
  rcases s.scanMonitorNanoapps with _ | ⟨_, _ | ⟨_, _⟩⟩ <;> cases enable <;> cases has <;> rfl

lemma required_of_not_requested {enable has : Bool}
    (h : s.scanMonitorIsInRequestedState enable has = false) :
    s.scanMonitorStateTransitionIsRequired enable has := by
  rw [requested_eq_not_required] at h
  simpa using h

/-- After a transition that was required the monitor is wanted as the request says. -/
lemma enabled_of_required (h : s.scanMonitorStateTransitionIsRequired t.enable
      (s.nanoappHasScanMonitorRequest t.nanoappInstanceId)) :
    (!(subscribersAfter s.scanMonitorNanoapps t.enable t.nanoappInstanceId).isEmpty) = t.enable ∧
      s.scanMonitorIsEnabled = !t.enable := by
  unfold scanMonitorStateTransitionIsRequired nanoappHasScanMonitorRequest at h
  unfold subscribersAfter scanMonitorIsEnabled
  cases henable : t.enable with
  | true =>
    rw [henable] at h
    have hempty : s.scanMonitorNanoapps = [] := by simpa using h
    rw [hempty]
    exact ⟨rfl, rfl⟩
  | false =>
    rw [henable] at h
    have hone : t.nanoappInstanceId ∈ s.scanMonitorNanoapps ∧ s.scanMonitorNanoapps.length = 1 := by
      simpa using h
    obtain ⟨i, hi⟩ := length_eq_one_iff.mp hone.2
    rw [hi, mem_singleton] at hone
    rw [hi, hone.1]
    simp

/-- A request that is carried out in the requested state leaves the monitor as it is. -/
lemma enabled_of_requested (h : s.scanMonitorIsInRequestedState t.enable
      (s.nanoappHasScanMonitorRequest t.nanoappInstanceId)) (hcan : s.canServe t) :
    (!(subscribersAfter s.scanMonitorNanoapps t.enable t.nanoappInstanceId).isEmpty) =
      s.scanMonitorIsEnabled := by
  unfold scanMonitorIsInRequestedState at h
  unfold canServe at hcan
  unfold subscribersAfter scanMonitorIsEnabled
  cases henable : t.enable with
  | true =>
    have hne : s.scanMonitorNanoapps ≠ [] := by simpa [henable, scanMonitorIsEnabled] using h
    have hafter : (if s.scanMonitorNanoapps.contains t.nanoappInstanceId then
        s.scanMonitorNanoapps else s.scanMonitorNanoapps ++ [t.nanoappInstanceId]) ≠ [] := by
      split <;> simp [hne]
    rw [if_pos rfl, isEmpty_eq_false_iff.mpr hafter, isEmpty_eq_false_iff.mpr hne]
  | false =>
    rw [henable, Bool.false_and, Bool.or_false] at hcan
    have hmem : t.nanoappInstanceId ∈ s.scanMonitorNanoapps := contains_iff_mem.mp hcan
    have hne : s.scanMonitorNanoapps ≠ [] := ne_nil_of_mem hmem
    have hlen : s.scanMonitorNanoapps.length > 1 := by
      simpa [henable, hcan, hne, scanMonitorIsEnabled] using h
    have hrest : (s.scanMonitorNanoapps.erase t.nanoappInstanceId) ≠ [] := by
      apply ne_nil_of_length_pos
      rw [length_erase_of_mem hmem]
      omega
    rw [if_neg Bool.false_ne_true, isEmpty_eq_false_iff.mpr hrest, isEmpty_eq_false_iff.mpr hne]

/-! ## The invariant -/

/-- What holds between two steps.  While the manager waits for the platform, the first
request is one that needs a transition. -/
structure Ok (s : State) : Prop where
  noFatal : s.fatal = false
  loaded : ∀ t ∈ s.transitions, (s.findNanoappByInstanceId t.nanoappInstanceId).isSome = true
  answered : s.monitorResults ++ s.transitions.map Transition.key = s.accepted
  monitor : s.monitor = s.scanMonitorIsEnabled
  waiting : s.handling = none → ∀ t rest, s.transitions = t :: rest → s.outstanding = true ∧
    s.scanMonitorStateTransitionIsRequired t.enable
      (s.nanoappHasScanMonitorRequest t.nanoappInstanceId) = true
  outstanding : s.outstanding = true → s.handling = none ∧ s.transitions ≠ []

section

variable (h : Ok s) {rest : List Transition} {apps : List Nanoapp}

include h

lemma Ok.sound : Sound s where
  noFatal := h.noFatal
  answered := h.answered
  waiting hne hhandling := by
    obtain ⟨t, rest, heq⟩ := exists_cons_of_ne_nil hne
    exact (h.waiting hhandling t rest heq).1
  monitor _ := h.monitor

/-- What the invariant speaks of, but for who is loaded. -/
def State.core (s : State) : Bool × List Transition × List Nat × Option (Bool × Nat) × Bool × Bool ×
    List (Nat × Nat) × List (Nat × Nat) :=
  (s.fatal, s.transitions, s.scanMonitorNanoapps, s.handling, s.monitor, s.outstanding, s.accepted,
    s.monitorResults)

/-- A step that leaves all of this alone keeps the invariant. -/
lemma Ok.frame {s' : State} (hcore : s'.core = s.core)
    (hsame : SameLoaded s.nanoapps s'.nanoapps) : Ok s' := by
  simp only [core, Prod.mk.injEq] at hcore
  obtain ⟨hfatal, htrans, hsubs, hhandling, hmonitor, hout, hacc, hres⟩ := hcore
  refine ⟨hfatal.trans h.noFatal, ?_, ?_, ?_, ?_, ?_⟩
  · intro t ht
    exact (hsame t.nanoappInstanceId).trans (h.loaded t (htrans ▸ ht))
  · rw [hres, htrans, hacc]
    exact h.answered
  · rw [hmonitor, h.monitor]
    unfold scanMonitorIsEnabled
    rw [hsubs]
  · intro hnone t rest heq
    obtain ⟨hout', hreq⟩ := h.waiting (hhandling ▸ hnone) t rest (htrans ▸ heq)
    refine ⟨hout.trans hout', ?_⟩
    unfold scanMonitorStateTransitionIsRequired nanoappHasScanMonitorRequest at hreq ⊢
    rwa [hsubs]
  · intro ho
    rw [hhandling, htrans]
    exact h.outstanding (hout ▸ ho)

omit h in
theorem monitorResults_result (s : State) (t : Transition) (success : Bool) (errorCode : Nat) :
    ((s.posted ++ [t.result success errorCode]).filter
        fun r => r.requestType == .configureScanMonitor).map (fun r => (r.target, r.cookie)) =
      s.monitorResults ++ [t.key] := by
  rw [filter_append, map_append]
  rfl

/-! ## Steps -/

lemma requestScan_ok (instanceId cookie now : Nat) (accepts : Bool) :
    Ok (s.requestScan instanceId cookie now accepts).2 := by
  unfold requestScan
  dsimp only
  refine h.frame ?_ ?_
  · split <;> split <;> try rfl
    all_goals split <;> rfl
  · split <;> split <;> try exact fun _ => rfl
    all_goals split <;> exact fun _ => rfl

lemma scanResponse_ok (pending : Bool) (errorCode : Nat) :
    Ok (s.handleScanResponseSync pending errorCode) := by
  unfold handleScanResponseSync
  cases s.scanRequestingNanoappInstanceId with
  | none => exact h
  | some instanceId =>
    have hres : ∀ r : AsyncResult, r.requestType = .requestScan →
        (s.post r).monitorResults = s.monitorResults := by
      intro r hr
      simp [monitorResults, post, hr]
    have hcore (r : AsyncResult) (hr : r.requestType = .requestScan) : (s.post r).core = s.core :=
      congrArg (fun results => (s.fatal, s.transitions, s.scanMonitorNanoapps, s.handling,
        s.monitor, s.outstanding, s.accepted, results)) (hres r hr)
    cases pending with
    | true => exact h.frame (hcore _ rfl) (sameLoaded_register _ _ _)
    | false => exact h.frame (hcore _ rfl) fun _ => rfl

lemma freeScanEvent_ok (event : ScanEvent) : Ok (s.handleFreeWifiScanEvent event) := by
  unfold handleFreeWifiScanEvent
  dsimp only
  split
  · split
    · split
      · exact h.frame rfl fun _ => rfl
      · split
        · exact h.frame rfl fun _ => rfl
        · exact h.frame rfl (sameLoaded_unregister _ _ _)
    · exact h.frame rfl fun _ => rfl
  · exact h

/-- A call of `configureScanMonitor` that finds the queue in use. -/
lemma enqueue_ok (t : Transition) (hloaded : (s.findNanoappByInstanceId t.nanoappInstanceId).isSome)
    (hne : s.transitions ≠ []) :
    Ok { s with transitions := s.transitions ++ [t], accepted := s.accepted ++ [t.key] } where
  noFatal := h.noFatal
  loaded u hu := by
    rcases mem_append.mp hu with hu | hu
    · exact h.loaded u hu
    · rw [mem_singleton.mp hu]
      exact hloaded
  answered := by
    change s.monitorResults ++ (s.transitions ++ [t]).map key = s.accepted ++ [t.key]
    rw [map_append, ← append_assoc, h.answered]
    rfl
  monitor := h.monitor
  waiting hhandling u rest heq := by
    obtain ⟨v, rest', hv⟩ := exists_cons_of_ne_nil hne
    have huv : v = u := by
      have heq' : s.transitions ++ [t] = u :: rest := heq
      rw [hv] at heq'
      exact (List.cons.inj heq').1
    exact huv ▸ h.waiting hhandling v rest' hv
  outstanding ho := ⟨(h.outstanding ho).1, by simp⟩

/-- A call of `configureScanMonitor` that finds the monitor in the requested state. -/
lemma immediate_ok (t : Transition) (errorCode : Nat) (hnil : s.transitions = [])
    (hreq : s.scanMonitorIsInRequestedState t.enable
      (s.nanoappHasScanMonitorRequest t.nanoappInstanceId)) (hcan : s.canServe t) :
    Ok { s with
      nanoapps := apps
      scanMonitorNanoapps := subscribersAfter s.scanMonitorNanoapps t.enable t.nanoappInstanceId
      posted := s.posted ++ [t.result true errorCode]
      accepted := s.accepted ++ [t.key] } where
  noFatal := h.noFatal
  loaded u hu := by
    rw [hnil] at hu
    cases hu
  answered := by
    have hans := h.answered
    rw [hnil, map_nil, append_nil] at hans ⊢
    exact (monitorResults_result s t true errorCode).trans (hans ▸ rfl)
  monitor := h.monitor.trans (enabled_of_requested hreq hcan).symm
  waiting _ u rest heq := by
    have heq' : s.transitions = u :: rest := heq
    rw [hnil] at heq'
    cases heq'
  outstanding ho := absurd hnil (h.outstanding ho).2

/-- A call of `configureScanMonitor` that starts a transition. -/
lemma start_ok (t : Transition) (hloaded : (s.findNanoappByInstanceId t.nanoappInstanceId).isSome)
    (hnil : s.transitions = []) (hhandling : s.handling = none)
    (hreq : s.scanMonitorStateTransitionIsRequired t.enable
      (s.nanoappHasScanMonitorRequest t.nanoappInstanceId)) :
    Ok { s with
      transitions := [t], outstanding := true, accepted := s.accepted ++ [t.key] } where
  noFatal := h.noFatal
  loaded u hu := by
    rw [mem_singleton.mp hu]
    exact hloaded
  answered := by
    have hans := h.answered
    rw [hnil, map_nil, append_nil] at hans
    exact congrArg (· ++ [t.key]) hans
  monitor := h.monitor
  waiting _ u rest heq := by
    have heq' : [t] = u :: rest := heq
    rw [← (List.cons.inj heq').1]
    exact ⟨rfl, hreq⟩
  outstanding _ := ⟨hhandling, cons_ne_nil t []⟩

lemma configure_ok (hhandling : s.handling = none) {instanceId : Nat}
    (hloaded : (s.findNanoappByInstanceId instanceId).isSome) (enable : Bool) (cookie : Nat)
    (accepts : Bool) : Ok (s.configure instanceId enable cookie accepts) := by
  let t : Transition := { nanoappInstanceId := instanceId, cookie, enable }
  unfold configure configureScanMonitor
  by_cases hnil : s.transitions = []
  · rw [if_neg (by simp [hnil])]
    cases hreq : s.scanMonitorIsInRequestedState enable
        (s.nanoappHasScanMonitorRequest instanceId) with
    | true =>
      unfold postScanMonitorAsyncResultEvent
      rcases update_eq t hloaded with ⟨hcan, heq⟩ | ⟨hcan, apps, hsame, heq⟩
      · have heq' : s.updateNanoappScanMonitoringList enable instanceId = (false, s) := heq
        rw [heq']
        exact h
      · have heq' : s.updateNanoappScanMonitoringList enable instanceId = _ := heq
        rw [heq']
        exact immediate_ok h t errorNone hnil hreq hcan
    | false =>
      have hrequired := required_of_not_requested hreq
      have hadd : s.addScanMonitorRequestToQueue instanceId enable cookie =
          some { s with transitions := [t] } := by
        unfold addScanMonitorRequestToQueue
        rw [hnil]
        rfl
      rw [if_pos hrequired, hadd]
      cases accepts with
      | true => exact start_ok h t hloaded hnil hhandling hrequired
      | false => exact h.frame (by simp [core, monitorResults, hnil]) fun _ => rfl
  · rw [if_pos (by simp [hnil])]
    unfold addScanMonitorRequestToQueue
    split_ifs
    · exact enqueue_ok h t hloaded hnil
    · exact h

/-! ## Answers of the platform -/

/-- A request has been answered, and the next one may be looked at. -/
lemma served_ok (htrans : s.transitions = t :: rest) (hsame : SameLoaded s.nanoapps apps)
    {subscribers : List Nat} {monitor : Bool} (hmonitor : monitor = !subscribers.isEmpty)
    (success : Bool) (errorCode : Nat) {handling : Option (Bool × Nat)}
    (hhandling : handling ≠ none)
    {outstanding : Bool} (hout : outstanding = false) :
    Ok { s with
      nanoapps := apps, scanMonitorNanoapps := subscribers
      posted := s.posted ++ [t.result success errorCode]
      transitions := rest, handling, monitor := monitor
      outstanding := outstanding } where
  noFatal := h.noFatal
  loaded u hu := by
    have hmem : u ∈ s.transitions := htrans ▸ mem_cons_of_mem t hu
    exact (hsame u.nanoappInstanceId).trans (h.loaded u hmem)
  answered := by
    have hans := h.answered
    rw [htrans] at hans
    refine Eq.trans ?_ hans
    refine (congrArg (· ++ rest.map key)
      (monitorResults_result s t success errorCode)).trans ?_
    rw [append_assoc]
    rfl
  monitor := hmonitor
  waiting hnone := absurd hnone hhandling
  outstanding ho := by
    have ho' : outstanding := ho
    rw [hout] at ho'
    cases ho'

end

lemma not_and_not : ∀ success can : Bool, (!success || can) = !(success && !can) := by
  decide

lemma reported_unchanged : ∀ noError enable enabled : Bool, (noError || enable != enabled) →
    (noError && enable == enabled) = false → enabled = !enable := by
  decide

/-- The platform has answered the first request. -/
lemma stateChange_ok (h : Ok s) (hout : s.outstanding) (enabled : Bool) (errorCode : Nat)
    (htruth : s.truthful (.scanMonitorStateChange enabled errorCode)) :
    (s.served (.scanMonitorStateChange enabled errorCode) = false ∧
        ({ s with monitor := enabled, outstanding := false } :
          State).handleScanMonitorStateChangeSync enabled errorCode = none) ∨
      s.served (.scanMonitorStateChange enabled errorCode) ∧
        ∃ s', ({ s with monitor := enabled, outstanding := false } :
          State).handleScanMonitorStateChangeSync enabled errorCode = some s' ∧ Ok s' := by
  obtain ⟨hhandling, hne⟩ := h.outstanding hout
  obtain ⟨t, rest, htrans⟩ := exists_cons_of_ne_nil hne
  obtain ⟨-, hreq⟩ := h.waiting hhandling t rest htrans
  obtain ⟨hafter, hbefore⟩ := enabled_of_required hreq
  have hloaded := h.loaded t (htrans ▸ mem_cons_self)
  have htruth' : (errorCode == errorNone || t.enable != enabled) := by
    unfold truthful at htruth
    rw [htrans] at htruth
    exact htruth
  have hserved : s.served (.scanMonitorStateChange enabled errorCode) =
      !(errorCode == errorNone && t.enable == enabled && !s.canServe t) := by
    unfold served
    rw [htrans, hhandling]
    dsimp only
    rw [hout, Bool.true_and, not_and_not]
  rw [hserved, handleScanMonitorStateChangeSync]
  rw [htrans]
  dsimp only
  rw [← htrans]
  rcases postFatal_eq (s := { s with monitor := enabled, outstanding := false }) t
    (errorCode == errorNone && t.enable == enabled) errorCode hloaded with
    ⟨hfail, heq⟩ | ⟨hok, apps, hsame, heq⟩
  · rw [heq]
    exact .inl ⟨congrArg not hfail, rfl⟩
  · rw [heq]
    refine .inr ⟨congrArg not hok, _, rfl, ?_⟩
    refine served_ok h htrans hsame ?_ _ errorCode (Option.some_ne_none _) rfl
    -- the monitor is as it was asked to be exactly when the request succeeds
    cases hsuccess : (errorCode == errorNone && t.enable == enabled) with
    | true =>
      have henabled : t.enable = enabled := by
        simp only [and_eq_true, beq_iff_eq] at hsuccess
        exact hsuccess.2
      exact henabled ▸ hafter.symm
    | false =>
      have henabled : enabled = !t.enable := reported_unchanged _ _ _ htruth' hsuccess
      exact henabled.trans hbefore.symm

/-- One round of the loop over the requests that waited. -/
lemma serveNext_ok (h : Ok s) {success : Bool} {errorCode : Nat}
    (hhandling : s.handling = some (success, errorCode)) (accepts : Bool) :
    (s.served (.serveNext accepts) = false ∧ s.serveNext success errorCode accepts = none) ∨
      s.served (.serveNext accepts) ∧
        ∃ s', s.serveNext success errorCode accepts = some s' ∧ Ok s' := by
  have hout : s.outstanding = false := by
    cases ho : s.outstanding with
    | false => rfl
    | true =>
      have hnone := (h.outstanding ho).1
      rw [hhandling] at hnone
      cases hnone
  cases htrans : s.transitions with
  | nil =>
    refine .inr ⟨by unfold served; rw [hhandling, htrans],
      { s with handling := none }, by unfold serveNext; rw [htrans], ?_⟩
    refine ⟨h.noFatal, h.loaded, h.answered, h.monitor, fun _ t rest heq => ?_, fun ho => ?_⟩
    · have heq' : s.transitions = t :: rest := heq
      rw [htrans] at heq'
      cases heq'
    · exact absurd ho (by simp [hout])
  | cons t rest =>
    have hloaded := h.loaded t (htrans ▸ mem_cons_self)
    have hserved : s.served (.serveNext accepts) =
        (!(success && s.scanMonitorIsInRequestedState t.enable
          (s.nanoappHasScanMonitorRequest t.nanoappInstanceId)) || s.canServe t) := by
      unfold served
      rw [hhandling, htrans]
    have hloop : s.handling ≠ none := hhandling ▸ Option.some_ne_none _
    rw [hserved, serveNext, htrans]
    dsimp only
    rw [← htrans]
    cases hreq : s.scanMonitorIsInRequestedState t.enable
        (s.nanoappHasScanMonitorRequest t.nanoappInstanceId) with
    | true =>
      rw [Bool.and_true]
      rcases postFatal_eq t success errorCode hloaded with ⟨hfail, heq⟩ | ⟨hok, apps, hsame, heq⟩
      · rw [heq]
        exact .inl ⟨(not_and_not _ _).trans (congrArg not hfail), rfl⟩
      · rw [heq]
        refine .inr ⟨(not_and_not _ _).trans (congrArg not hok), _, rfl, ?_⟩
        have hmonitor : s.monitor = !(if success then subscribersAfter s.scanMonitorNanoapps
            t.enable t.nanoappInstanceId else s.scanMonitorNanoapps).isEmpty := by
          cases success with
          | false => exact h.monitor
          | true => exact h.monitor.trans (enabled_of_requested hreq (by simpa using hok)).symm
        exact served_ok h htrans hsame hmonitor success errorCode hloop hout
    | false =>
      have hrequired := required_of_not_requested hreq
      rw [if_pos hrequired, Bool.and_false]
      refine .inr ⟨rfl, ?_⟩
      cases accepts with
      | true =>
        refine ⟨_, rfl, h.noFatal, h.loaded, h.answered, h.monitor, fun _ u rest' heq => ?_,
          fun _ => ⟨rfl, htrans ▸ cons_ne_nil t rest⟩⟩
        have heq' : s.transitions = u :: rest' := heq
        rw [htrans] at heq'
        rw [← (List.cons.inj heq').1]
        exact ⟨rfl, hrequired⟩
      | false =>
        rcases postFatal_eq t false errorGeneric hloaded with ⟨hfail, -⟩ | ⟨-, apps, hsame, heq⟩
        · cases hfail
        · rw [heq]
          refine ⟨_, rfl, ?_⟩
          exact served_ok h htrans hsame h.monitor false errorGeneric hloop hout

/-! ## Runs -/

/-- **Steps.** A step is fatal exactly when a request that is to be carried out cannot be. -/
theorem step_ok (h : Ok s) (e : Event) (htruth : s.truthful e) :
    (s.served e = false ∧ (s.step e).fatal) ∨ (s.served e ∧ Ok (s.step e)) := by
  cases hhandling : s.handling with
  | some p =>
    rw [step, h.noFatal, hhandling]
    cases e with
    | serveNext accepts =>
      dsimp only [stepInLoop]
      rcases serveNext_ok h hhandling accepts with ⟨hserved, heq⟩ | ⟨hserved, s', heq, hok⟩
      · rw [heq]
        exact .inl ⟨hserved, rfl⟩
      · rw [heq]
        exact .inr ⟨hserved, hok⟩
    | scanMonitorStateChange => exact .inr ⟨by unfold served; rw [hhandling], h⟩
    | configureScanMonitor | requestScan | scanResponse | scanEvent | freeScanEvent =>
      exact .inr ⟨rfl, h⟩
  | none =>
    rw [step, h.noFatal, if_neg Bool.false_ne_true, hhandling]
    cases e with
    | scanMonitorStateChange enabled errorCode =>
      dsimp only [stepOutside]
      cases hout : s.outstanding with
      | true =>
        rcases stateChange_ok h hout enabled errorCode htruth with
          ⟨hserved, heq⟩ | ⟨hserved, s', heq, hok⟩
        · rw [heq]
          exact .inl ⟨hserved, rfl⟩
        · rw [heq]
          exact .inr ⟨hserved, hok⟩
      | false =>
        refine .inr ⟨?_, h⟩
        unfold served
        rw [hhandling, hout]
        cases s.transitions <;> rfl
    | serveNext => exact .inr ⟨by unfold served; rw [hhandling], h⟩
    | configureScanMonitor instanceId enable cookie accepts =>
      refine .inr ⟨rfl, ?_⟩
      dsimp only [stepOutside]
      split
      case isTrue hloaded => exact configure_ok h hhandling hloaded enable cookie accepts
      case isFalse => exact h
    | requestScan instanceId cookie now accepts =>
      refine .inr ⟨rfl, ?_⟩
      dsimp only [stepOutside]
      split
      · exact requestScan_ok h instanceId cookie now accepts
      · exact h
    | scanResponse pending errorCode => exact .inr ⟨rfl, scanResponse_ok h pending errorCode⟩
    | scanEvent event => exact .inr ⟨rfl, h.frame rfl fun _ => rfl⟩
    | freeScanEvent =>
      refine .inr ⟨rfl, ?_⟩
      dsimp only [stepOutside]
      split
      · exact h
      · rename_i event rest _
        have hrest : Ok { s with scanEvents := rest } := h.frame rfl fun _ => rfl
        exact freeScanEvent_ok hrest event

lemma fatal_stays (events : List Event) (hfatal : s.fatal) : (events.foldl step s).fatal := by
  induction events generalizing s with
  | nil => exact hfatal
  | cons e events ih =>
    refine ih ?_
    unfold step
    rw [if_pos hfatal]
    exact hfatal

lemma sound_iff (events : List Event) (h : Ok s)
    (htruth : EachStep (fun s e => s.truthful e) step s events) :
    Sound (events.foldl step s) ↔ EachStep (fun s e => s.served e) step s events := by
  induction events generalizing s with
  | nil => exact ⟨fun _ => trivial, fun _ => h.sound⟩
  | cons e events ih =>
    rcases step_ok h e htruth.1 with ⟨hserved, hfatal⟩ | ⟨hserved, hok⟩
    · have hend := fatal_stays events hfatal
      refine ⟨fun hsound => ?_, fun hsteps => ?_⟩
      · exact absurd (hsound.noFatal.symm.trans hend) false_ne_true
      · exact absurd (hserved.symm.trans hsteps.1) false_ne_true
    · exact (ih hok htruth.2).trans ⟨fun hsteps => ⟨hserved, hsteps⟩, fun hsteps => hsteps.2⟩

/-- **The scan monitor.** Whatever nanoapps and the platform do, if an error of the platform
means that the monitor was not changed: a run is free of fatal errors, answers the requests
once and in order and keeps the monitor on for its subscribers exactly when every request
that is answered with success can be carried out. -/
theorem scan_monitor_sound_iff (nanoapps : List Nanoapp) (events : List Event)
    (htruth : EachStep (fun s e => s.truthful e = true) State.step { nanoapps := nanoapps }
      events) :
    Sound (run nanoapps events) ↔
      EachStep (fun s e => s.served e = true) State.step { nanoapps := nanoapps } events :=
  sound_iff events
    { noFatal := rfl
      loaded := nofun
      answered := rfl
      monitor := rfl
      waiting := fun _ _ _ heq => by cases heq
      outstanding := fun ho => by cases ho } htruth

/-- Two nanoapps. -/
def sampleNanoapps : List Nanoapp := [{ instanceId := 1 }, { instanceId := 2 }]

/-- The first nanoapp enables the monitor; the second one asks for it while the platform is at
work, and the first one gives it up. -/
def sampleRun : List Event :=
  [.configureScanMonitor 1 true 10 true, .configureScanMonitor 2 true 20 true,
   .scanMonitorStateChange true errorNone, .serveNext true, .serveNext true,
   .configureScanMonitor 1 false 11 true]

theorem scan_monitor_sound_sampleRun :
    Sound (run sampleNanoapps sampleRun) ∧
      (run sampleNanoapps sampleRun).scanMonitorNanoapps = [2] :=
  ⟨(scan_monitor_sound_iff sampleNanoapps sampleRun (by decide)).mpr (by decide), by decide⟩

/-- **A nanoapp can bring the system down.** It disables the monitor, which it has not
enabled, while a request of another nanoapp is under way; or it enables the monitor while
the results of its own scan are pending. -/
theorem disable_behind_enable :
    (run sampleNanoapps
      [.configureScanMonitor 1 true 10 true, .configureScanMonitor 2 false 20 true,
       .scanMonitorStateChange true errorNone, .serveNext true]).fatal = true ∧
    (run sampleNanoapps [.requestScan 1 30 0 true, .scanResponse true errorNone,
       .configureScanMonitor 1 true 10 true,
       .scanMonitorStateChange true errorNone]).fatal = true := by
  decide

end Chre.Wifi
