import AlpsSystem.Chre.ScanMonitor

/-!
# Who receives scan results

A nanoapp is registered for the results of scans by the scan monitor and by a scan of its
own, without a count of the reasons.

* `State.wantsResults` — who should be registered.
* `run_registered` — when exactly those are.
-/

namespace Chre.Wifi

open Runs (EachStep Throughout throughout_of_inv)

open List

variable {s s' : State} {i errorCode : Nat}

/-- The results of a scan that this nanoapp has requested are pending. -/
def State.resultsPendingFor (s : State) (instanceId : Nat) : Bool :=
  s.scanRequestResultsArePending && s.scanRequestingNanoappInstanceId == some instanceId

def State.wantsResults (s : State) (instanceId : Nat) : Bool :=
  s.nanoappHasScanMonitorRequest instanceId || s.resultsPendingFor instanceId

/-- Exactly those who want scan results are registered for them. -/
def State.Registered (s : State) : Prop :=
  ∀ app ∈ s.nanoapps, app.isRegisteredForBroadcastEvent eventWifiScanResult =
    s.wantsResults app.instanceId

instance (s : State) : Decidable s.Registered :=
  inferInstanceAs (Decidable (∀ app ∈ s.nanoapps, _))

/-- The nanoapp for which the monitor is disabled in this step. -/
def State.disabledFor (s : State) (event : Event) : Option Nat :=
  match event, s.handling, s.transitions with
  | .configureScanMonitor instanceId false _ _, none, [] =>
    if s.scanMonitorIsInRequestedState false (s.nanoappHasScanMonitorRequest instanceId) then
      some instanceId
    else none
  | .scanMonitorStateChange enabled errorCode, none, t :: _ =>
    if s.outstanding && errorCode == errorNone && !t.enable && !enabled then
      some t.nanoappInstanceId
    else none
  | .serveNext _, some (success, _), t :: _ =>
    if success && !t.enable && s.scanMonitorIsInRequestedState false
        (s.nanoappHasScanMonitorRequest t.nanoappInstanceId) then
      some t.nanoappInstanceId
    else none
  | _, _, _ => none

/-- While the results of a scan are pending, the monitor is not disabled for the nanoapp
that waits for them, the scan does not time out, and the platform does not take back that
they are pending. -/
def State.undisturbed (s : State) (event : Event) : Bool :=
  match event with
  | .requestScan _ _ now _ =>
    !(s.scanRequestResultsArePending && decide (s.lastScanRequestTime + scanResultTimeoutNs < now))
  | .scanResponse pending _ => pending || !s.scanRequestResultsArePending
  | event => !(s.disabledFor event).any s.resultsPendingFor

/-! ## What a step keeps -/

/-- How often a nanoapp is registered for scan results. -/
def registrations (app : Nanoapp) : Nat := app.registeredEvents.count eventWifiScanResult

open Nanoapp

lemma isRegistered_iff (app : Nanoapp) :
    app.isRegisteredForBroadcastEvent eventWifiScanResult ↔ 0 < registrations app := by
  unfold isRegisteredForBroadcastEvent registrations
  rw [contains_iff_mem, count_pos_iff]

lemma registrations_register {app : Nanoapp} (h : registrations app ≤ 1) :
    registrations (app.registerForBroadcastEvent eventWifiScanResult).2 = 1 := by
  have hiff := isRegistered_iff app
  unfold registerForBroadcastEvent
  split
  case isTrue hreg =>
    have := hiff.mp hreg
    dsimp only
    omega
  case isFalse hreg =>
    have hzero : registrations app = 0 := by
      have := mt hiff.mpr hreg
      omega
    unfold registrations at hzero ⊢
    rw [count_append, hzero, count_singleton_self]

lemma registrations_unregister (app : Nanoapp) :
    registrations (app.unregisterForBroadcastEvent eventWifiScanResult).2 =
      registrations app - 1 := by
  have hiff := isRegistered_iff app
  unfold unregisterForBroadcastEvent
  split
  case isTrue => exact count_erase_self
  case isFalse hreg =>
    have := mt hiff.mpr hreg
    dsimp only
    omega

/-- What is kept by a step: everyone is registered once or not at all, as they want. -/
structure Counted (s : State) : Prop where
  exact : ∀ app ∈ s.nanoapps, registrations app = (s.wantsResults app.instanceId).toNat
  nodup : s.scanMonitorNanoapps.Nodup
  requester : s.scanRequestResultsArePending = true →
    s.scanRequestingNanoappInstanceId.isSome = true

lemma Counted.registered (h : Counted s) : s.Registered := by
  intro app happ
  have hcount := h.exact app happ
  have hiff := isRegistered_iff app
  rw [Bool.eq_iff_iff, hiff, hcount]
  cases s.wantsResults app.instanceId <;> decide

open Bool State

lemma wants_of_pending (hpending : s.scanRequestResultsArePending)
    (hrequester : s.scanRequestingNanoappInstanceId = some i) : s.wantsResults i := by
  unfold wantsResults resultsPendingFor
  rw [hpending, hrequester, beq_self_eq_true, Bool.true_and, Bool.or_true]

/-- Only the nanoapp that requests a scan wants its results. -/
lemma wants_of_requester {j : Nat} (hrequester : s.scanRequestingNanoappInstanceId = some i)
    (hj : j ≠ i) : s.wantsResults j = s.nanoappHasScanMonitorRequest j := by
  have hne : (some i == some j) = false := by
    rw [beq_eq_false_iff_ne]
    exact fun h => hj (Option.some.inj h).symm
  unfold wantsResults resultsPendingFor
  rw [hrequester, hne, Bool.and_false, Bool.or_false]

lemma wants_of_idle (hidle : s.scanRequestResultsArePending = false) (i : Nat) :
    s.wantsResults i = s.nanoappHasScanMonitorRequest i := by
  unfold wantsResults resultsPendingFor
  rw [hidle, Bool.false_and, Bool.or_false]

section

variable (h : Counted s) {instanceId : Nat}

include h

/-- The invariant speaks of these fields only. -/
lemma Counted.frame (happs : s'.nanoapps = s.nanoapps)
    (hmonitor : s'.scanMonitorNanoapps = s.scanMonitorNanoapps)
    (hpending : s'.scanRequestResultsArePending = s.scanRequestResultsArePending)
    (hrequester : s'.scanRequestingNanoappInstanceId = s.scanRequestingNanoappInstanceId) :
    Counted s' where
  exact := by
    intro app happ
    rw [happs] at happ
    unfold wantsResults nanoappHasScanMonitorRequest resultsPendingFor
    rw [hmonitor, hpending, hrequester]
    exact h.exact app happ
  nodup := hmonitor ▸ h.nodup
  requester := by
    rw [hpending, hrequester]
    exact h.requester

/-- A nanoapp changes its registration as its wishes change. -/
lemma Counted.update {f : Nanoapp → Nanoapp}
    (happs : s'.nanoapps = updateApp s.nanoapps instanceId f)
    (hid : ∀ app, (f app).instanceId = app.instanceId)
    (hself : ∀ app ∈ s.nanoapps, app.instanceId = instanceId →
      registrations (f app) = (s'.wantsResults instanceId).toNat)
    (hothers : ∀ i, i ≠ instanceId → s'.wantsResults i = s.wantsResults i)
    (hnodup : s'.scanMonitorNanoapps.Nodup)
    (hrequester : s'.scanRequestResultsArePending →
      s'.scanRequestingNanoappInstanceId.isSome) : Counted s' where
  exact := by
    intro app' happ'
    rw [happs] at happ'
    obtain ⟨app, happ, rfl⟩ := mem_map.mp happ'
    by_cases hi : app.instanceId = instanceId
    · rw [if_pos hi, hid, hi]
      exact hself app happ hi
    · rw [if_neg hi, hothers _ hi]
      exact h.exact app happ
  nodup := hnodup
  requester := hrequester

/-! ## The scan monitor -/

/-- The monitor is enabled for a nanoapp that is not registered. -/
lemma Counted.enroll (hwants : s.wantsResults instanceId = false) :
    Counted { s with
      nanoapps := updateApp s.nanoapps instanceId fun app =>
        (app.registerForBroadcastEvent eventWifiScanResult).2
      scanMonitorNanoapps := s.scanMonitorNanoapps ++ [instanceId] } := by
  have hnot : instanceId ∉ s.scanMonitorNanoapps := by
    intro hin
    have hcontains : s.nanoappHasScanMonitorRequest instanceId :=
      contains_iff_mem.mpr hin
    unfold wantsResults at hwants
    rw [hcontains] at hwants
    cases hwants
  refine h.update rfl (fun app => app.registerForBroadcastEvent_instanceId _) ?_ ?_ ?_ h.requester
  · intro app happ hi
    have hnow : (s.scanMonitorNanoapps ++ [instanceId]).contains instanceId := by
      rw [contains_iff_mem]
      exact mem_append_right _ mem_cons_self
    rw [registrations_register (by rw [h.exact app happ, hi, hwants]; decide)]
    unfold wantsResults nanoappHasScanMonitorRequest
    rw [hnow]
    rfl
  · intro i hi
    unfold wantsResults nanoappHasScanMonitorRequest
    congr 1
    rw [contains_eq_mem, contains_eq_mem, decide_eq_decide, mem_append, mem_singleton]
    exact ⟨fun h => h.resolve_right hi, .inl⟩
  · refine nodup_append.mpr ⟨h.nodup, by simp, ?_⟩
    intro i hi j hj
    rw [mem_singleton.mp hj]
    exact fun hij => hnot (hij ▸ hi)

/-- The monitor is disabled for a nanoapp that does not wait for results of its own. -/
lemma Counted.withdraw (hhas : s.nanoappHasScanMonitorRequest instanceId)
    (hpending : s.resultsPendingFor instanceId = false) :
    Counted { s with
      nanoapps := updateApp s.nanoapps instanceId fun app =>
        (app.unregisterForBroadcastEvent eventWifiScanResult).2
      scanMonitorNanoapps := s.scanMonitorNanoapps.erase instanceId } := by
  have hwants : s.wantsResults instanceId := by
    unfold wantsResults
    rw [hhas, Bool.true_or]
  refine h.update rfl (fun app => app.unregisterForBroadcastEvent_instanceId _) ?_ ?_ ?_
    h.requester
  · intro app happ hi
    have hgone : (s.scanMonitorNanoapps.erase instanceId).contains instanceId = false := by
      rw [contains_eq_mem, decide_eq_false_iff_not]
      exact h.nodup.not_mem_erase
    have hpending' : (s.scanRequestResultsArePending &&
        s.scanRequestingNanoappInstanceId == some instanceId) = false := hpending
    rw [registrations_unregister, h.exact app happ, hi, hwants]
    unfold wantsResults nanoappHasScanMonitorRequest resultsPendingFor
    rw [hgone, hpending']
    rfl
  · intro i hi
    unfold wantsResults nanoappHasScanMonitorRequest
    congr 1
    rw [contains_eq_mem, contains_eq_mem]
    exact decide_eq_decide.mpr (mem_erase_of_ne hi)
  · exact h.nodup.erase _

/-- The monitor is enabled or disabled for a nanoapp. -/
lemma update_counted (enable : Bool) (instanceId : Nat)
    (hdisable : enable = false → s.resultsPendingFor instanceId = false) :
    Counted (s.updateNanoappScanMonitoringList enable instanceId).2 := by
  unfold updateNanoappScanMonitoringList
  cases happ : s.findNanoappByInstanceId instanceId with
  | none => exact h
  | some nanoapp =>
    dsimp only
    cases enable with
    | true =>
      cases hhas : s.nanoappHasScanMonitorRequest instanceId with
      | true => exact h
      | false =>
        cases hreg : nanoapp.isRegisteredForBroadcastEvent eventWifiScanResult with
        | true =>
          rw [show nanoapp.registerForBroadcastEvent eventWifiScanResult = (false, nanoapp) from
            if_pos hreg]
          exact h
        | false =>
          have hwants : s.wantsResults instanceId = false := by
            obtain ⟨hmem, hid⟩ := lookup_mem happ
            rw [← hid, ← h.registered nanoapp hmem]
            exact hreg
          rw [show nanoapp.registerForBroadcastEvent eventWifiScanResult = (true, _) from
            if_neg (by rw [hreg]; nofun)]
          exact h.enroll hwants
    | false =>
      rw [if_neg Bool.false_ne_true]
      split
      case isTrue hhas => exact h.withdraw hhas (hdisable rfl)
      case isFalse => exact h

lemma post_counted (result : AsyncResult) : Counted (s.post result) :=
  h.frame rfl rfl rfl rfl

/-- A request is answered. -/
lemma postResult_counted (instanceId : Nat) (success enable : Bool) (errorCode cookie : Nat)
    (hdisable : success → enable = false → s.resultsPendingFor instanceId = false) :
    Counted (s.postScanMonitorAsyncResultEvent instanceId success enable errorCode cookie).2 := by
  unfold postScanMonitorAsyncResultEvent
  cases success with
  | false => exact post_counted h _
  | true =>
    have hupdate := update_counted h enable instanceId (hdisable rfl)
    generalize s.updateNanoappScanMonitoringList enable instanceId = updated at hupdate
    obtain ⟨ok, s'⟩ := updated
    cases ok with
    | false => exact hupdate
    | true => exact post_counted hupdate _

lemma postFatal_counted (instanceId : Nat) (success enable : Bool) (errorCode cookie : Nat)
    (hdisable : success → enable = false → s.resultsPendingFor instanceId = false)
    (hpost : s.postScanMonitorAsyncResultEventFatal instanceId success enable errorCode
      cookie = some s') : Counted s' := by
  have hresult := postResult_counted h instanceId success enable errorCode cookie hdisable
  unfold postScanMonitorAsyncResultEventFatal at hpost
  generalize s.postScanMonitorAsyncResultEvent instanceId success enable errorCode cookie = result
    at hpost hresult
  obtain ⟨ok, t⟩ := result
  cases ok with
  | false => cases hpost
  | true =>
    cases hpost
    exact hresult

/-! ## Scans -/

section

variable (hmonitor : s'.scanMonitorNanoapps = s.scanMonitorNanoapps)

include hmonitor

/-- While no results are pending, it does not matter who requests a scan. -/
lemma Counted.frame_idle (hidle : s.scanRequestResultsArePending = false)
    (happs : s'.nanoapps = s.nanoapps)
    (hidle' : s'.scanRequestResultsArePending = false) : Counted s' where
  exact := by
    intro app happ
    have hwants : s'.wantsResults app.instanceId = s.wantsResults app.instanceId := by
      unfold wantsResults nanoappHasScanMonitorRequest resultsPendingFor
      rw [hmonitor, hidle, hidle', Bool.false_and, Bool.false_and]
    rw [hwants]
    exact h.exact app (happs ▸ happ)
  nodup := hmonitor ▸ h.nodup
  requester := by
    rw [hidle']
    nofun

omit h in
theorem nanoappHasScanMonitorRequest_congr (j : Nat) :
    s'.nanoappHasScanMonitorRequest j = s.nanoappHasScanMonitorRequest j := by
  unfold nanoappHasScanMonitorRequest
  rw [hmonitor]

variable (hrequester : s.scanRequestingNanoappInstanceId = some i)

include hrequester

/-- The results of a scan become pending. -/
lemma Counted.pend (happs : s'.nanoapps = updateApp s.nanoapps i fun app =>
      (app.registerForBroadcastEvent eventWifiScanResult).2)
    (hpending' : s'.scanRequestResultsArePending)
    (hrequester' : s'.scanRequestingNanoappInstanceId = some i) : Counted s' := by
  refine h.update happs (fun app => app.registerForBroadcastEvent_instanceId _) ?_ ?_
    (hmonitor ▸ h.nodup) (fun _ => by rw [hrequester']; rfl)
  · intro app happ hi
    rw [wants_of_pending hpending' hrequester']
    refine registrations_register ?_
    rw [h.exact app happ]
    exact toNat_le _
  · intro j hj
    rw [wants_of_requester hrequester hj, wants_of_requester hrequester' hj,
      nanoappHasScanMonitorRequest_congr hmonitor]

/-- The results of a scan have been received by a nanoapp that has enabled the monitor. -/
lemma Counted.settle_monitoring (hpending : s.scanRequestResultsArePending)
    (hhas : s.nanoappHasScanMonitorRequest i)
    (happs : s'.nanoapps = s.nanoapps)
    (hidle' : s'.scanRequestResultsArePending = false) : Counted s' where
  exact := by
    intro app happ
    rw [happs] at happ
    rw [wants_of_idle hidle', nanoappHasScanMonitorRequest_congr hmonitor, h.exact app happ]
    by_cases hi : app.instanceId = i
    · rw [hi, wants_of_pending hpending hrequester, hhas]
    · rw [wants_of_requester hrequester hi]
  nodup := hmonitor ▸ h.nodup
  requester := by
    rw [hidle']
    nofun

/-- The results of a scan have been received by another nanoapp. -/
lemma Counted.settle (hpending : s.scanRequestResultsArePending)
    (hhas : s.nanoappHasScanMonitorRequest i = false)
    (happs : s'.nanoapps = updateApp s.nanoapps i fun app =>
      (app.unregisterForBroadcastEvent eventWifiScanResult).2)
    (hidle' : s'.scanRequestResultsArePending = false) : Counted s' := by
  have hhas' := nanoappHasScanMonitorRequest_congr hmonitor
  refine h.update happs (fun app => app.unregisterForBroadcastEvent_instanceId _) ?_ ?_
    (hmonitor ▸ h.nodup) (by rw [hidle']; nofun)
  · intro app happ hi
    rw [registrations_unregister, h.exact app happ, hi, wants_of_pending hpending hrequester,
      wants_of_idle hidle', hhas', hhas]
    rfl
  · intro j hj
    rw [wants_of_idle hidle', hhas', wants_of_requester hrequester hj]

end

lemma requestScan_counted (instanceId cookie now : Nat) (accepts : Bool)
    (hok : s.undisturbed (.requestScan instanceId cookie now accepts)) :
    Counted (s.requestScan instanceId cookie now accepts).2 := by
  unfold requestScan
  dsimp only
  by_cases hpending : s.scanRequestResultsArePending
  · have hintime : ¬ s.lastScanRequestTime + scanResultTimeoutNs < now := by
      intro hlate
      unfold undisturbed at hok
      dsimp only at hok
      rw [hpending, decide_eq_true hlate] at hok
      cases hok
    rw [decide_eq_false hintime, Bool.and_false, if_neg Bool.false_ne_true,
      if_pos (h.requester hpending)]
    exact h
  · have hidle := eq_false_of_ne_true hpending
    split_ifs <;> exact h.frame_idle rfl hidle rfl hidle

lemma scanResponse_counted (pending : Bool) (errorCode : Nat)
    (hok : s.undisturbed (.scanResponse pending errorCode)) :
    Counted (s.handleScanResponseSync pending errorCode) := by
  unfold handleScanResponseSync
  cases hrequester : s.scanRequestingNanoappInstanceId with
  | none => exact h
  | some i =>
    cases pending with
    | false =>
      have hidle : s.scanRequestResultsArePending = false := by
        unfold undisturbed at hok
        simpa using hok
      exact h.frame_idle rfl hidle rfl rfl
    | true => exact h.pend rfl hrequester rfl rfl hrequester

lemma freeScanEvent_counted (event : ScanEvent) : Counted (s.handleFreeWifiScanEvent event) := by
  unfold handleFreeWifiScanEvent
  split
  case isFalse => exact h
  case isTrue hpending =>
    dsimp only
    split
    case isFalse => exact h.frame rfl rfl rfl rfl
    case isTrue =>
      obtain ⟨i, hrequester⟩ := Option.isSome_iff_exists.mp (h.requester hpending)
      rw [hrequester]
      dsimp only
      split
      case isTrue hhas => exact h.settle_monitoring rfl hrequester hpending hhas rfl rfl
      case isFalse hhas =>
        exact h.settle rfl hrequester hpending (eq_false_of_ne_true hhas) rfl rfl

/-! ## Runs -/

lemma enqueue_counted {enable : Bool} {cookie : Nat}
    (hadd : s.addScanMonitorRequestToQueue instanceId enable cookie = some s') :
    Counted s' := by
  unfold addScanMonitorRequestToQueue at hadd
  split at hadd
  · cases hadd
    exact h.frame rfl rfl rfl rfl
  · cases hadd

lemma configureScanMonitor_counted (hhandling : s.handling = none)
    (instanceId : Nat) (enable : Bool) (cookie : Nat) (accepts : Bool)
    (hok : s.undisturbed (.configureScanMonitor instanceId enable cookie accepts)) :
    Counted (s.configureScanMonitor instanceId enable cookie accepts).2 := by
  unfold configureScanMonitor
  dsimp only
  split
  · split
    case h_1 hadd => exact enqueue_counted h hadd
    case h_2 => exact h
  case isFalse hempty =>
    split
    case isTrue hrequested =>
      refine postResult_counted h _ _ _ _ _ fun _ hdisable => ?_
      subst hdisable
      have hnil : s.transitions = [] := by simpa using hempty
      unfold undisturbed disabledFor at hok
      rw [hhandling, hnil] at hok
      dsimp only at hok
      rw [if_pos hrequested] at hok
      simpa using hok
    case isFalse =>
      split
      · split
        case h_1 hadd => split <;> exact (enqueue_counted h hadd).frame rfl rfl rfl rfl
        case h_2 => exact h
      · exact h

lemma configure_counted (hhandling : s.handling = none) (instanceId : Nat)
    (enable : Bool) (cookie : Nat) (accepts : Bool)
    (hok : s.undisturbed (.configureScanMonitor instanceId enable cookie accepts)) :
    Counted (s.configure instanceId enable cookie accepts) := by
  have hcall := configureScanMonitor_counted h hhandling instanceId enable cookie accepts hok
  unfold configure
  generalize s.configureScanMonitor instanceId enable cookie accepts = result at hcall
  obtain ⟨ok, s'⟩ := result
  cases ok with
  | true => exact hcall.frame rfl rfl rfl rfl
  | false => exact hcall

/-- A handler keeps the invariant, and so does `FATAL_ERROR`. -/
lemma orFatal_counted {result : Option State}
    (hresult : ∀ s', result = some s' → Counted s') : Counted (s.orFatal result) := by
  cases result with
  | none => exact h.frame rfl rfl rfl rfl
  | some s' => exact hresult s' rfl

open Counted

lemma stateChange_counted (enabled : Bool) (errorCode : Nat)
    (hdisable : ∀ t rest, s.transitions = t :: rest → errorCode = errorNone → t.enable = enabled →
      t.enable = false → s.resultsPendingFor t.nanoappInstanceId = false) :
    ∀ s', s.handleScanMonitorStateChangeSync enabled errorCode = some s' → Counted s' := by
  intro s' hs'
  unfold handleScanMonitorStateChangeSync at hs'
  cases htrans : s.transitions with
  | nil =>
    rw [htrans] at hs'
    cases hs'
    exact h
  | cons t rest =>
    rw [htrans] at hs'
    obtain ⟨s1, hpost, rfl⟩ := Option.map_eq_some_iff.mp hs'
    refine frame (postFatal_counted h _ _ _ _ _ ?_ hpost) rfl rfl rfl rfl
    intro hsuccess hfalse
    rw [and_eq_true, beq_iff_eq, beq_iff_eq] at hsuccess
    exact hdisable t rest htrans hsuccess.1 hsuccess.2 hfalse

end

/-- What `undisturbed` says of an answer of the platform. -/
lemma undisturbed_stateChange (hhandling : s.handling = none) (hout : s.outstanding)
    {enabled : Bool}
    (hok : s.undisturbed (.scanMonitorStateChange enabled errorCode)) :
    ∀ t rest, s.transitions = t :: rest → errorCode = errorNone → t.enable = enabled →
      t.enable = false → s.resultsPendingFor t.nanoappInstanceId = false := by
  intro t rest htrans herror henable hfalse
  unfold undisturbed disabledFor at hok
  rw [hhandling, htrans] at hok
  dsimp only at hok
  rw [hout, ← henable, hfalse, herror] at hok
  simpa using hok

lemma serveNext_counted (h : Counted s) {success : Bool}
    (hhandling : s.handling = some (success, errorCode)) (accepts : Bool)
    (hok : s.undisturbed (.serveNext accepts)) :
    ∀ s', s.serveNext success errorCode accepts = some s' → Counted s' := by
  intro s' hs'
  unfold serveNext at hs'
  cases htrans : s.transitions with
  | nil =>
    rw [htrans] at hs'
    cases hs'
    exact h.frame rfl rfl rfl rfl
  | cons t rest =>
    rw [htrans] at hs'
    dsimp only at hs'
    split at hs'
    case isTrue hrequested =>
      obtain ⟨s1, hpost, rfl⟩ := Option.map_eq_some_iff.mp hs'
      refine Counted.frame (postFatal_counted h _ _ _ _ _ ?_ hpost) rfl rfl rfl rfl
      intro hsuccess hdisable
      unfold undisturbed disabledFor at hok
      rw [hdisable] at hrequested
      rw [hhandling, htrans] at hok
      dsimp only at hok
      rw [hsuccess, hdisable, hrequested] at hok
      simpa using hok
    case isFalse =>
      split at hs'
      · split at hs'
        · cases hs'
          exact h.frame rfl rfl rfl rfl
        · obtain ⟨s1, hpost, rfl⟩ := Option.map_eq_some_iff.mp hs'
          exact Counted.frame (postFatal_counted h _ _ _ _ _
            (fun hsuccess => absurd hsuccess false_ne_true) hpost) rfl rfl rfl rfl
      · cases hs'
        exact h.frame rfl rfl rfl rfl

lemma step_counted (h : Counted s) (e : Event) (hok : s.undisturbed e) : Counted (s.step e) := by
  unfold step
  split
  case isTrue => exact h
  case isFalse =>
    cases hhandling : s.handling with
    | some handling =>
      cases e with
      | serveNext accepts =>
        exact orFatal_counted h (serveNext_counted h hhandling accepts hok)
      | _ => exact h
    | none =>
      cases e with
      | configureScanMonitor instanceId enable cookie accepts =>
        unfold stepOutside
        dsimp only
        split
        · exact configure_counted h hhandling instanceId enable cookie accepts hok
        · exact h
      | requestScan instanceId cookie now accepts =>
        unfold stepOutside
        dsimp only
        split
        · exact requestScan_counted h instanceId cookie now accepts hok
        · exact h
      | scanMonitorStateChange enabled errorCode =>
        unfold stepOutside
        dsimp only
        split
        case isTrue hout =>
          have h0 : Counted { s with monitor := enabled, outstanding := false } :=
            h.frame rfl rfl rfl rfl
          exact orFatal_counted h0 (stateChange_counted h0 enabled errorCode
            (undisturbed_stateChange hhandling hout hok))
        case isFalse => exact h
      | serveNext accepts => exact h
      | scanResponse pending errorCode => exact scanResponse_counted h pending errorCode hok
      | scanEvent event => exact h.frame rfl rfl rfl rfl
      | freeScanEvent =>
        unfold stepOutside
        cases s.scanEvents with
        | nil => exact h
        | cons event rest =>
          exact freeScanEvent_counted (s := { s with scanEvents := rest })
            (h.frame rfl rfl rfl rfl) event

lemma counted_start {nanoapps : List Nanoapp}
    (hfresh : ∀ app ∈ nanoapps, app.isRegisteredForBroadcastEvent eventWifiScanResult = false) :
    Counted { nanoapps } where
  exact := by
    intro app happ
    have hiff := isRegistered_iff app
    rw [hfresh app happ] at hiff
    have hzero : registrations app = 0 := by
      by_contra hne
      exact false_ne_true (hiff.mpr (pos_of_ne_zero hne))
    rw [hzero]
    rfl
  nodup := nodup_nil
  requester := nofun

/-- **Scan results.**  In a run of undisturbed steps, exactly the nanoapps that have enabled
the scan monitor or wait for the results of a scan of their own are registered for scan
results, in every state. -/
theorem run_registered (nanoapps : List Nanoapp) (events : List Event)
    (hfresh : ∀ app ∈ nanoapps, app.isRegisteredForBroadcastEvent eventWifiScanResult = false)
    (hok : EachStep (fun s e => s.undisturbed e = true) State.step
      { nanoapps := nanoapps } events) :
    Throughout State.Registered State.step { nanoapps := nanoapps } events :=
  (throughout_of_inv (I := Counted) (fun _ e h hok => step_counted h e hok) events _
    (counted_start hfresh) hok).mono fun _ h => h.registered

/-- A nanoapp that enables the monitor, makes a scan and gets its results while another one
monitors too. -/
def scanRun : List Event :=
  [.configureScanMonitor 1 true 7 true, .scanMonitorStateChange true 0, .serveNext true,
   .configureScanMonitor 2 true 8 true, .requestScan 1 9 0 true, .scanResponse true 0,
   .configureScanMonitor 2 false 10 true, .scanEvent ⟨3, 3⟩, .freeScanEvent]

theorem run_registered_scanRun :
    Throughout State.Registered State.step { nanoapps := sampleNanoapps } scanRun :=
  run_registered sampleNanoapps scanRun (by decide) (by decide)

/-- A nanoapp that disables the monitor does not get the results of its own scan.  A scan
that times out with results pending leaves one nanoapp registered that does not wait, and
one that is taken to wait unregistered. -/
theorem disable_with_results_pending :
    ¬ (run sampleNanoapps
      [.configureScanMonitor 1 true 7 true, .scanMonitorStateChange true 0, .serveNext true,
       .requestScan 1 9 0 true, .scanResponse true 0, .configureScanMonitor 1 false 8 true,
       .scanMonitorStateChange false 0]).Registered ∧
    ¬ (run sampleNanoapps [.requestScan 1 9 0 true, .scanResponse true 0,
       .requestScan 2 10 (scanResultTimeoutNs + 1) true]).Registered := by
  decide

end Chre.Wifi
