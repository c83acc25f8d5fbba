import AlpsSystem.Chre.GnssRequestManager

/-!
# Location sessions

What holds in every run of the GNSS request manager: a request that waits has an answer of
the platform to wait for.

* `live_iff` — a run is live exactly when the platform rejects a control request only while
  there is one session request.
-/

namespace Chre.Gnss

open Runs (EachStep Throughout throughout_iff_eachStep)

variable {s s' : State} {t : Transition} {errorCode instanceId minInterval cookie : Nat}
  {enable accepts : Bool}

/-! ## What the helpers leave as it is -/

/-- The queue, the platform's debt and the interval. -/
def State.control (s : State) : List Transition × Bool × Bool × Nat :=
  (s.transitions, s.outstanding, s.fatal, s.currentInterval)

open Bool State

lemma update_control (enable : Bool) (minInterval instanceId : Nat) :
    (s.updateLocationSessionRequests enable minInterval instanceId).2.control = s.control := by
  unfold updateLocationSessionRequests
  split
  · rfl
  · split
    · rfl
    · split <;> rfl
    · rfl
    · rfl

lemma postResult_control (instanceId : Nat) (success enable : Bool)
    (minInterval errorCode cookie : Nat) :
    (s.postLocationSessionAsyncResultEvent instanceId success enable minInterval errorCode
      cookie).2.control = s.control := by
  have hupdate := update_control (s := s) enable minInterval instanceId
  unfold postLocationSessionAsyncResultEvent
  cases success with
  | false => rfl
  | true =>
    generalize s.updateLocationSessionRequests enable minInterval instanceId = updated at hupdate
    obtain ⟨ok, s'⟩ := updated
    cases ok <;> exact hupdate

lemma postFatal_control {success : Bool}
    (h : s.postFatal t success errorCode = some s') : s'.control = s.control := by
  have hpost := postResult_control (s := s) t.nanoappInstanceId success t.enable t.minInterval
    errorCode t.cookie
  unfold postFatal at h
  generalize s.postLocationSessionAsyncResultEvent t.nanoappInstanceId success t.enable
    t.minInterval errorCode t.cookie = result at h hpost
  obtain ⟨ok, s1⟩ := result
  cases ok with
  | false => cases h
  | true =>
    cases h
    exact hpost

lemma State.control_eq (h : s'.control = s.control) :
    s'.transitions = s.transitions ∧ s'.outstanding = s.outstanding ∧ s'.fatal = s.fatal ∧
      s'.currentInterval = s.currentInterval := by
  simpa [control] using h

/-! ## Progress -/

/-- The queue has entries exactly while the platform has to answer. -/
def State.Live (s : State) : Prop :=
  s.fatal = false → (s.transitions ≠ [] ↔ s.outstanding = true)

/-- The calls that return `false` leave the queue as it is. -/
def State.rejectsCleanly (s : State) (event : Event) : Prop :=
  s.fatal = false → ∀ s', s.call event = some (false, s') → s'.transitions = s.transitions

/-- An answer of the platform makes the queue shorter, unless it is fatal. -/
def State.answerServes (s : State) (event : Event) : Prop :=
  ∀ enabled errorCode answers, event = .statusChange enabled errorCode answers →
    s.fatal = false → s.outstanding = true →
      (s.step event).fatal = true ∨ (s.step event).transitions.length < s.transitions.length

/-- The platform would be called for this request. -/
def State.asksPlatform (s : State) (instanceId : Nat) (enable : Bool) (minInterval : Nat) : Bool :=
  (s.findNanoappByInstanceId instanceId).isSome && s.transitions.isEmpty &&
    !s.locationSessionIsInRequestedState enable minInterval (s.requestIndex instanceId).isSome &&
    s.locationSessionStateTransitionIsRequired enable minInterval (s.requestIndex instanceId)

/-- The platform rejects a request of a nanoapp only if one session request is stored. -/
def State.rejectsInTime (s : State) (event : Event) : Bool :=
  match event with
  | .start instanceId minInterval _ _ accepts =>
    s.fatal || accepts || !s.asksPlatform instanceId true minInterval || s.requests.length == 1
  | .stop instanceId _ accepts =>
    s.fatal || accepts || !s.asksPlatform instanceId false uint64Max || s.requests.length == 1
  | .statusChange .. => true

lemma serveQueue_live {ts : List Transition} : ∀ {answers : List Bool}
    {s s' : State}, s.outstanding = false → s.serveQueue errorCode ts answers = some s' →
    (s'.transitions ≠ [] ↔ s'.outstanding) ∧ s'.fatal = s.fatal ∧
      s'.transitions.length ≤ ts.length := by
  induction ts with
  | nil =>
    intro answers s s' hout h
    cases h
    exact ⟨by simp [hout], rfl, le_rfl⟩
  | cons t rest ih =>
    -- a request that is answered leaves the queue, whether it is carried out or not
    have hanswered : ∀ {answers : List Bool} {s s1 s' : State} {success : Bool} {code : Nat},
        s.outstanding = false → s.postFatal t success code = some s1 →
        s1.serveQueue errorCode rest answers = some s' →
        (s'.transitions ≠ [] ↔ s'.outstanding) ∧ s'.fatal = s.fatal ∧
          s'.transitions.length ≤ (t :: rest).length := by
      intro answers s s1 s' success code hout hpost hserve
      obtain ⟨-, hout1, hfatal1, -⟩ := control_eq (postFatal_control hpost)
      obtain ⟨hiff, hfatal, hlen⟩ := ih (hout1.trans hout) hserve
      exact ⟨hiff, hfatal.trans hfatal1, Nat.le_succ_of_le hlen⟩
    intro answers s s' hout h
    unfold serveQueue at h
    split at h
    · split at h
      · cases h
        exact ⟨by simp, rfl, le_rfl⟩
      · obtain ⟨s1, hpost, hserve⟩ := Option.bind_eq_some_iff.mp h
        exact hanswered hout hpost hserve
    · obtain ⟨s1, hpost, hserve⟩ := Option.bind_eq_some_iff.mp h
      exact hanswered hout hpost hserve

lemma answer_live (h : s.Live) (hfatal : s.fatal = false) (hout : s.outstanding)
    (enabled : Bool) (errorCode : Nat) (answers : List Bool) :
    (s.answer enabled errorCode answers).fatal ∨ ((s.answer enabled errorCode answers).Live ∧
        (s.answer enabled errorCode answers).transitions.length < s.transitions.length) := by
  unfold answer
  rw [if_pos hout]
  cases hhandle : handleLocationSessionStatusChangeSync { s with outstanding := false }
      enabled errorCode answers with
  | none => exact .inl rfl
  | some s' =>
    refine .inr ?_
    cases htrans : s.transitions with
    | nil => exact absurd htrans ((h hfatal).mpr hout)
    | cons t rest =>
      rw [htrans] at hhandle
      obtain ⟨s1, hpost, hserve⟩ := Option.bind_eq_some_iff.mp hhandle
      obtain ⟨-, hout1, -, -⟩ := control_eq (postFatal_control hpost)
      have hfalse : s1.outstanding = false := by
        rw [hout1]
        split <;> rfl
      obtain ⟨hiff, -, hlen⟩ := serveQueue_live hfalse hserve
      exact ⟨fun _ => hiff, Nat.lt_succ_of_le hlen⟩

lemma State.Live.frame (h : s.Live) (hcontrol : s'.control = s.control) : s'.Live := by
  obtain ⟨htrans, hout, hfatal, -⟩ := control_eq hcontrol
  unfold State.Live
  rw [htrans, hout, hfatal]
  exact h

/-- The last entry is taken back exactly if one session request is stored. -/
lemma remove_single (htrans : s.transitions = [t]) :
    (s.removeTransition s.lastRequestIndex).transitions =
      if s.requests.length = 1 then [] else [t] := by
  unfold removeTransition lastRequestIndex
  rw [htrans, List.length_singleton]
  by_cases hone : s.requests.length = 1
  · rw [hone]
    rfl
  · have hindex : ¬ (if s.requests.length = 0 then sizeMax else s.requests.length - 1) < 1 := by
      split
      · decide
      · omega
    rw [if_neg hindex, if_neg hone, htrans]

lemma remove_frame (index : Nat) :
    (s.removeTransition index).outstanding = s.outstanding ∧
      (s.removeTransition index).fatal = s.fatal := by
  unfold removeTransition
  split <;> exact ⟨rfl, rfl⟩

/-- A rejected request leaves a live queue exactly if one session request is stored. -/
lemma reject_live (htrans : s.transitions = [t]) (hout : s.outstanding = false)
    (hfatal : s.fatal = false) :
    (s.requests.length = 1 ∧ (s.removeTransition s.lastRequestIndex).Live ∧
        (s.removeTransition s.lastRequestIndex).transitions = []) ∨
      (s.requests.length ≠ 1 ∧ ¬ (s.removeTransition s.lastRequestIndex).Live) := by
  have hremove := remove_single htrans
  obtain ⟨hout', hfatal'⟩ := remove_frame s.lastRequestIndex
  by_cases hone : s.requests.length = 1
  · rw [if_pos hone] at hremove
    refine .inl ⟨hone, fun _ => ?_, hremove⟩
    rw [hremove, hout', hout]
    simp
  · rw [if_neg hone] at hremove
    refine .inr ⟨hone, fun hlive => ?_⟩
    have hiff := hlive (hfatal'.trans hfatal)
    rw [hremove, hout', hout] at hiff
    simp at hiff

/-- What a call does with the queue: it is live after it, and as before if the call fails,
unless the platform rejects the request at the wrong time. -/
lemma configure_queue (h : s.Live) (hfatal : s.fatal = false) {ok : Bool}
    (hloaded : (s.findNanoappByInstanceId instanceId).isSome)
    (hcall : s.configureLocationSession instanceId enable minInterval cookie accepts = (ok, s')) :
    (accepts || !s.asksPlatform instanceId enable minInterval || s.requests.length == 1) ∧
        s'.Live ∧ (ok = false → s'.transitions = s.transitions) ∨
      (accepts || !s.asksPlatform instanceId enable minInterval || s.requests.length == 1) = false ∧
        ¬ s'.Live := by
  have hiff := h hfatal
  unfold asksPlatform
  unfold configureLocationSession at hcall
  dsimp only at hcall
  split at hcall
  case isTrue hqueued =>
    -- the request waits behind others
    refine .inl ⟨by rw [not_eq_true'] at hqueued; simp [hqueued], ?_⟩
    unfold addLocationSessionRequestToQueue at hcall
    split at hcall
    case h_1 s1 hadd =>
      split at hadd
      · cases hadd
        cases hcall
        refine ⟨fun _ => ?_, nofun⟩
        have hne : s.transitions ≠ [] := by
          rintro hnil
          rw [hnil] at hqueued
          cases hqueued
        exact ⟨fun _ => hiff.mp hne, fun _ => by simp⟩
      · cases hadd
    case h_2 =>
      cases hcall
      exact ⟨h, fun _ => rfl⟩
  case isFalse hempty =>
    have hnil : s.transitions = [] := by simpa using hempty
    have hout : s.outstanding = false := by
      rw [hnil] at hiff
      simpa using hiff
    split at hcall
    case isTrue hrequested =>
      have hcontrol := postResult_control (s := s) instanceId true enable minInterval errorNone
        cookie
      rw [hcall] at hcontrol
      exact .inl ⟨by simp [hrequested], h.frame hcontrol, fun _ => (control_eq hcontrol).1⟩
    case isFalse hrequested =>
      split at hcall
      case isFalse hrequired =>
        cases hcall
        exact .inl ⟨by simp [hrequired], h, fun _ => rfl⟩
      case isTrue hrequired =>
        unfold addLocationSessionRequestToQueue at hcall
        rw [hnil] at hcall
        cases accepts with
        | true =>
          cases hcall
          exact .inl ⟨rfl, fun _ => by simp, nofun⟩
        | false =>
          cases hcall
          rw [hloaded, hnil, eq_false_of_ne_true hrequested, hrequired]
          rcases reject_live (s := { s with transitions := [_] }) rfl hout hfatal with
            ⟨hone, hlive, htrans⟩ | ⟨hone, hlive⟩
          · have hone' : (s.requests.length == 1) := beq_iff_eq.mpr hone
            exact .inl ⟨by rw [hone']; rfl, hlive, fun _ => htrans⟩
          · have hone' : (s.requests.length == 1) = false := beq_eq_false_iff_ne.mpr hone
            exact .inr ⟨by rw [hone']; rfl, hlive⟩

/-- A call of a nanoapp. -/
lemma call_live (h : s.Live) (hfatal : s.fatal = false) {e : Event}
    (hcall : s.call e = if (s.findNanoappByInstanceId instanceId).isSome then
      some (s.configureLocationSession instanceId enable minInterval cookie accepts) else none) :
    (accepts || !s.asksPlatform instanceId enable minInterval || s.requests.length == 1) ∧
        ((s.call e).elim s fun result => result.2).Live ∧ s.rejectsCleanly e ∨
      (accepts || !s.asksPlatform instanceId enable minInterval || s.requests.length == 1) = false ∧
        ¬ ((s.call e).elim s fun result => result.2).Live := by
  unfold rejectsCleanly
  rw [hcall]
  by_cases hloaded : (s.findNanoappByInstanceId instanceId).isSome
  · rw [if_pos hloaded]
    rcases hconf : s.configureLocationSession instanceId enable minInterval cookie accepts
      with ⟨ok, s1⟩
    rcases configure_queue h hfatal hloaded hconf with ⟨hok, hlive, hclean⟩ | ⟨hbad, hnot⟩
    · refine .inl ⟨hok, hlive, fun _ s' hs' => ?_⟩
      obtain ⟨hfalse, rfl⟩ := Prod.mk.inj (Option.some.inj hs')
      exact hclean hfalse
    · exact .inr ⟨hbad, hnot⟩
  · rw [if_neg hloaded, asksPlatform, eq_false_of_ne_true hloaded]
    exact .inl ⟨by simp, h, fun _ s' hs' => by cases hs'⟩

/-- A step of a live system: it stays live and serves, unless the platform rejects a
request at the wrong time. -/
lemma step_live (h : s.Live) (e : Event) :
    (s.rejectsInTime e ∧ (s.step e).Live ∧ s.rejectsCleanly e ∧ s.answerServes e) ∨
      (s.rejectsInTime e = false ∧ ¬ (s.step e).Live) := by
  by_cases hfatal : s.fatal = false
  · have hstep : ¬ s.fatal := by rw [hfatal]; nofun
    unfold rejectsInTime answerServes step
    rw [if_neg hstep]
    simp only [hfatal]
    cases e with
    | start instanceId minInterval minTimeToNextFix cookie accepts =>
      rcases call_live (e := .start instanceId minInterval minTimeToNextFix cookie accepts) h hfatal
        rfl with ⟨hok, hlive, hclean⟩ | ⟨hbad, hnot⟩
      · exact .inl ⟨hok, hlive, hclean, fun _ _ _ h => nomatch h⟩
      · exact .inr ⟨hbad, hnot⟩
    | stop instanceId cookie accepts =>
      rcases call_live (e := .stop instanceId cookie accepts) h hfatal rfl with
        ⟨hok, hlive, hclean⟩ | ⟨hbad, hnot⟩
      · exact .inl ⟨hok, hlive, hclean, fun _ _ _ h => nomatch h⟩
      · exact .inr ⟨hbad, hnot⟩
    | statusChange enabled errorCode answers =>
      refine .inl ⟨rfl, ?_, fun _ s' hs' => (nomatch hs'), ?_⟩
      · by_cases hout : s.outstanding
        · rcases answer_live h hfatal hout enabled errorCode answers with hdown | ⟨hlive, -⟩
          · intro hup
            rw [hdown] at hup
            cases hup
          · exact hlive
        · have hidle : s.answer enabled errorCode answers = s := if_neg hout
          show (s.answer enabled errorCode answers).Live
          rw [hidle]
          exact h
      · intro _ _ _ _ _ hout
        exact (answer_live h hfatal hout enabled errorCode answers).imp id fun h => h.2
  · have hdown : s.fatal := eq_true_of_ne_false hfatal
    have hstep : s.step e = s := if_pos hdown
    refine .inl ⟨?_, by rw [hstep]; exact h, fun hup => absurd hup hfatal,
      fun _ _ _ _ hup => absurd hup hfatal⟩
    unfold rejectsInTime
    cases e with
    | start | stop => rw [hdown]; rfl
    | statusChange => rfl

/-- **Progress.**  A run passes only through states in which the queue has entries exactly
while the platform has to answer, its calls that return `false` leave no entry behind and
every answer of the platform serves a request, if and only if the platform rejects requests
only while one session request is stored. -/
theorem live_iff (nanoapps : List Nanoapp) (events : List Event) :
    (Throughout State.Live State.step { nanoapps := nanoapps } events ∧
      EachStep (fun s e => s.rejectsCleanly e ∧ s.answerServes e) State.step
        { nanoapps := nanoapps } events) ↔
      EachStep (fun s e => s.rejectsInTime e = true) State.step
        { nanoapps := nanoapps } events := by
  refine throughout_iff_eachStep (I := State.Live) (fun _ h => h) (fun s e h => ?_) events
    { nanoapps := nanoapps } fun _ => by simp
  rcases step_live h e with hgood | ⟨hbad, hnot⟩
  · exact .inl hgood
  · exact .inr ⟨fun hok => Bool.noConfusion (hbad.symm.trans hok), hnot⟩

/-- Three nanoapps. -/
def sampleNanoapps : List Nanoapp := [{ instanceId := 1 }, { instanceId := 2 }, { instanceId := 3 }]

/-- The first start of a session is rejected by the platform and stays in the queue; the
next one is accepted and waits behind it, with no answer to come. -/
theorem rejected_start_stays :
    let s := State.step { nanoapps := sampleNanoapps } (.start 1 1000 0 7 false)
    (State.startLocationSession { nanoapps := sampleNanoapps } 1 1000 0 7 false).1 = false ∧
      s.transitions = [⟨1, 7, true, 1000⟩] ∧ s.outstanding = false ∧
      (s.startLocationSession 2 500 0 8 true).1 = true ∧
      (s.step (.start 2 500 0 8 true)).transitions = [⟨1, 7, true, 1000⟩, ⟨2, 8, true, 500⟩] ∧
      (s.step (.start 2 500 0 8 true)).outstanding = false := by
  decide

end Chre.Gnss
