import AlpsSystem.Keymaster.Enforcement

/-!
# Users are authenticated

A key with a secure ID is used only by a user who has shown up at an authenticator.

* `user_authenticated` — an operation that begins and finishes carries a token of such a
  user, which is fresh at its begin or was made for it.
-/

namespace Keymaster

open AuthorizationSet (lastIndex)

open List

/-! ## Tags of a key -/

lemma lastIndex_none {tag : Tag} {set : AuthorizationSet} :
    lastIndex tag set = none ↔ ∀ param ∈ set, param.tag ≠ tag := by
  induction set with
  | nil => simp [lastIndex]
  | cons param set ih =>
    unfold lastIndex
    rw [forall_mem_cons, ← ih]
    cases lastIndex tag set with
    | some i => simp
    | none =>
      by_cases htag : param.tag = tag
      · simp
      · simp

/-! ## Tokens -/

/-- The operation carries a token of the current version with a valid signature, for a secure
ID of the key and by a kind of authenticator that the key accepts. -/
structure TokenFor (ctx : Context) (authSet operationParams : AuthorizationSet)
    (token : HwAuthToken) : Prop where
  carried : ∃ param, operationParams.findTag .authToken = some param ∧
    param.blob.length = sizeofHwAuthToken ∧ token = HwAuthToken.ofBytes param.blob
  version : token.version = hwAuthTokenVersion
  signature : ctx.validateTokenSignature token = true
  secureId : ∃ param ∈ authSet, param.tag = .userSecureId ∧
    (token.userId = param.longInteger ∨ token.authenticatorId = param.longInteger)
  authType : ∃ param ∈ authSet, param.tag = .userAuthType ∧
    param.integer &&& token.authenticatorType ≠ 0

open HwAuthToken

/-- What a match of the token with a secure ID of the key means. -/
lemma authTokenMatches_spec {ctx : Context} {authSet operationParams : AuthorizationSet}
    {sid : KeyParam} (hmem : sid ∈ authSet) (hsid : sid.tag = .userSecureId)
    {authTimeoutIndex : Option Nat} {opHandle : Nat} {isBegin : Bool}
    (h : authTokenMatches ctx authSet operationParams sid.longInteger
      (lastIndex .userAuthType authSet) authTimeoutIndex opHandle isBegin) :
    ∃ token, TokenFor ctx authSet operationParams token ∧
      (authTimeoutIndex = none → opHandle ≠ 0 → token.challenge = opHandle) ∧
      (∀ i, authTimeoutIndex = some i → isBegin → ∃ param, authSet[i]? = some param ∧
        param.tag = .authTimeout ∧ ctx.authTokenTimedOut token param.integer = false) := by
  unfold authTokenMatches at h
  -- each check is passed, in the order of the source
  split at h
  · cases h
  rename_i param hparam
  split at h
  · cases h
  rename_i hlength
  dsimp only at h
  refine ⟨ofBytes param.blob, ?_⟩
  generalize htoken : ofBytes param.blob = token at h
  split at h
  · cases h
  rename_i hversion
  split at h
  · cases h
  rename_i hsignature
  split at h
  · cases h
  rename_i hchallenge
  split at h
  · cases h
  rename_i hids
  split at h
  · cases h
  rename_i authType hauthType
  obtain ⟨j, -, hget⟩ := Option.bind_eq_some_iff.mp hauthType
  split at h
  · cases h
  rename_i htype
  split at h
  · cases h
  rename_i hmask
  refine ⟨⟨⟨param, hparam, not_not.mp hlength, htoken.symm⟩, not_not.mp hversion,
    by simpa using hsignature, ⟨sid, hmem, hsid, ?_⟩,
    ⟨authType, mem_of_getElem? hget, not_not.mp htype, hmask⟩⟩, ?_, ?_⟩
  · by_contra hne
    exact hids ⟨fun h => hne (.inl h.symm), fun h => hne (.inr h.symm)⟩
  · intro hnone hhandle
    by_contra hne
    exact hchallenge ⟨hnone, hhandle, fun h => hne h.symm⟩
  · intro i hi hbegin
    subst hi hbegin
    rw [if_pos rfl] at h
    dsimp only at h
    split at h
    · cases h
    rename_i timeout htimeout
    rw [Bool.and_eq_true, beq_iff_eq, Bool.not_eq_true'] at h
    exact ⟨timeout, htimeout, h.1, h.2⟩

/-! ## The scan -/

namespace Enforcement

variable {e : Enforcement} {ctx : Context} {purpose : Purpose} {keyid pos : Nat}
  {authSet operationParams : AuthorizationSet} {acc acc' : Scan} {param : KeyParam}
  {params : List KeyParam} {error : Error}

/-- One authorization has been checked: what it requires, and what it adds to the variables of
the loop. -/
structure Checked (e : Enforcement) (ctx : Context) (keyid : Nat)
    (authSet operationParams : AuthorizationSet) (pos : Nat) (param : KeyParam)
    (acc acc' : Scan) : Prop where
  minTime : param.tag = .minSecondsBetweenOps →
    e.minTimeBetweenOpsPassed (ctx.checkTime pos) param.integer keyid = true
  maxUses : param.tag = .maxUsesPerBoot → e.maxUsesPerBootNotExceeded keyid param.integer = true
  auth : param.tag = .userSecureId → lastIndex .noAuthRequired authSet = none
  minOpsTimeout : acc'.minOpsTimeout =
    if param.tag = .minSecondsBetweenOps then param.integer else acc.minOpsTimeout
  updateAccessCount : acc'.updateAccessCount =
    (acc.updateAccessCount || param.tag == .maxUsesPerBoot)
  authenticationRequired : acc'.authenticationRequired = (acc.authenticationRequired ||
    param.tag == .userSecureId && (lastIndex .authTimeout authSet).isSome)
  authTokenMatched : acc'.authTokenMatched = (acc.authTokenMatched ||
    param.tag == .userSecureId && (lastIndex .authTimeout authSet).isSome &&
      authTokenMatches ctx authSet operationParams param.longInteger
        (lastIndex .userAuthType authSet) (lastIndex .authTimeout authSet) 0 true)

lemma scanParam_spec
    (h : e.scanParam ctx purpose keyid authSet operationParams acc pos param = .ok acc') :
    Checked e ctx keyid authSet operationParams pos param acc acc' := by
  unfold scanParam at h
  by_cases hmin : param.tag = .minSecondsBetweenOps
  · rw [hmin] at h
    dsimp only at h
    split at h
    · next hpassed =>
      cases h
      constructor <;> simp [hmin, hpassed]
    · cases h
  by_cases hmax : param.tag = .maxUsesPerBoot
  · rw [hmax] at h
    dsimp only at h
    split at h
    · next hpassed =>
      cases h
      constructor <;> simp [hmax, hpassed]
    · cases h
  by_cases hsid : param.tag = .userSecureId
  · rw [hsid] at h
    dsimp only at h
    split at h
    · cases h
    · next hauth =>
      have hnone : lastIndex .noAuthRequired authSet = none := by simpa using hauth
      split at h
      · next htimeout =>
        cases h
        constructor <;> simp [hsid, hnone, htimeout]
      · next htimeout =>
        have hno : (lastIndex .authTimeout authSet).isSome = false := eq_false_of_ne_true htimeout
        cases h
        constructor <;> simp [hsid, hnone, hno]
  · -- no other tag changes what is recorded here
    have hsame : acc'.minOpsTimeout = acc.minOpsTimeout ∧
        acc'.updateAccessCount = acc.updateAccessCount ∧
        acc'.authenticationRequired = acc.authenticationRequired ∧
        acc'.authTokenMatched = acc.authTokenMatched := by
      split at h
      all_goals first
        | contradiction
        | (cases h; exact ⟨rfl, rfl, rfl, rfl⟩)
        | (split at h <;> cases h; exact ⟨rfl, rfl, rfl, rfl⟩)
    obtain ⟨htime, hcount, hrequired, hmatched⟩ := hsame
    constructor <;> simp [hmin, hmax, hsid, htime, hcount, hrequired, hmatched]

/-- A successful scan has checked the authorizations one after the other. -/
inductive Scanned (e : Enforcement) (ctx : Context) (keyid : Nat)
    (authSet operationParams : AuthorizationSet) : Nat → List KeyParam → Scan → Scan → Prop
  | done (pos : Nat) (acc : Scan) : Scanned e ctx keyid authSet operationParams pos [] acc acc
  | next {pos : Nat} {param : KeyParam} {rest : List KeyParam} {acc acc₁ acc₂ : Scan}
      (checked : Checked e ctx keyid authSet operationParams pos param acc acc₁)
      (scanned : Scanned e ctx keyid authSet operationParams (pos + 1) rest acc₁ acc₂) :
      Scanned e ctx keyid authSet operationParams pos (param :: rest) acc acc₂

lemma scan_spec (h : e.scan ctx purpose keyid authSet operationParams pos params acc = .ok acc') :
    Scanned e ctx keyid authSet operationParams pos params acc acc' := by
  induction params generalizing pos acc with
  | nil =>
    cases h
    exact .done pos _
  | cons param rest ih =>
    unfold scan at h
    split at h
    · cases h
    · next acc₁ hparam => exact .next (scanParam_spec hparam) (ih h)

namespace Scanned

variable {pos : Nat} {params : List KeyParam} {acc acc' : Scan} {param : KeyParam}

variable (h : Scanned e ctx keyid authSet operationParams pos params acc acc')

include h

/-- Each authorization has been checked. -/
lemma checked (hmem : param ∈ params) :
    ∃ pos acc acc', Checked e ctx keyid authSet operationParams pos param acc acc' := by
  induction h with
  | done => cases hmem
  | next checked _ ih =>
    rcases mem_cons.mp hmem with rfl | hrest
    · exact ⟨_, _, _, checked⟩
    · exact ih hrest

lemma authenticationRequired_mono
    (hacc : acc.authenticationRequired) : acc'.authenticationRequired := by
  induction h with
  | done => exact hacc
  | next checked _ ih => exact ih (by rw [checked.authenticationRequired, hacc, Bool.true_or])

/-- Authentication is required for a key with a secure ID and a timeout. -/
lemma authenticationRequired (hmem : param ∈ params)
    (htag : param.tag = .userSecureId) (htimeout : (lastIndex .authTimeout authSet).isSome) :
    acc'.authenticationRequired := by
  induction h with
  | done => cases hmem
  | next checked scanned ih =>
    rcases mem_cons.mp hmem with rfl | hrest
    · refine scanned.authenticationRequired_mono ?_
      rw [checked.authenticationRequired, htag, htimeout]
      simp
    · exact ih hrest

/-- A token has matched one of the secure IDs. -/
lemma authTokenMatched (hbefore : acc.authTokenMatched = false) (hmatched : acc'.authTokenMatched) :
    ∃ sid ∈ params, sid.tag = .userSecureId ∧ authTokenMatches ctx authSet operationParams
      sid.longInteger (lastIndex .userAuthType authSet) (lastIndex .authTimeout authSet) 0 true =
        true := by
  induction h with
  | done => exact absurd (hbefore.symm.trans hmatched) nofun
  | @next pos param rest acc acc₁ acc₂ checked _ ih =>
    by_cases hnow : acc₁.authTokenMatched
    · have hstep := checked.authTokenMatched
      rw [hnow, hbefore, Bool.false_or, eq_comm, Bool.and_eq_true, Bool.and_eq_true,
        beq_iff_eq] at hstep
      exact ⟨param, mem_cons_self, hstep.1.1, hstep.2⟩
    · obtain ⟨sid, hmem, hsid⟩ := ih (eq_false_of_ne_true hnow) hmatched
      exact ⟨sid, mem_cons_of_mem _ hmem, hsid⟩

end Scanned

/-! ## Operations -/

lemma scanParam_error
    (h : e.scanParam ctx purpose keyid authSet operationParams acc pos param = .error error) :
    error ≠ .ok := by
  unfold scanParam at h
  split at h
  all_goals first
    | (cases h; exact nofun)
    | cases h
    | (split at h <;> cases h; exact nofun)
    | (split at h; (cases h; exact nofun); split at h <;> cases h)

lemma scan_error
    (h : e.scan ctx purpose keyid authSet operationParams pos params acc = .error error) :
    error ≠ .ok := by
  induction params generalizing pos acc with
  | nil => cases h
  | cons param rest ih =>
    unfold scan at h
    split at h
    · next error' hparam =>
      cases h
      exact scanParam_error hparam
    · exact ih h

/-- What a begin can do: it fails and changes nothing, or it passes the checks and records the
use of the key, first in the table of times and then in the table of counts. -/
lemma authorizeBegin_cases {e' : Enforcement}
    (h : e.authorizeBegin ctx purpose keyid authSet operationParams = (error, e')) :
    (error ≠ .ok ∧ e' = e) ∨
      ∃ acc, Scanned e ctx keyid authSet operationParams 0 authSet {} acc ∧
        (acc.authenticationRequired → acc.authTokenMatched) ∧
        ∃ error1 e1, e.recordTime keyid ctx.updateTime acc.minOpsTimeout = (error1, e1) ∧
          ((error1 ≠ .ok ∧ error = error1 ∧ e' = e1) ∨
            (error1 = .ok ∧ e1.recordCount keyid acc.updateAccessCount = (error, e'))) := by
  unfold authorizeBegin at h
  split at h
  case h_2 hne =>
    obtain ⟨herror, hsame⟩ := Prod.mk.inj h
    exact .inl ⟨herror ▸ hne, hsame.symm⟩
  case h_1 =>
    split at h
    case h_1 error' hscan =>
      cases h
      exact .inl ⟨scan_error hscan, rfl⟩
    case h_2 acc hscan =>
      split at h
      · cases h
        exact .inl ⟨nofun, rfl⟩
      rename_i hauth
      have hmatched : acc.authenticationRequired → acc.authTokenMatched := by
        intro hrequired
        rw [hrequired, Bool.true_and, Bool.not_eq_true', Bool.not_eq_false] at hauth
        exact hauth
      split at h
      · cases h
        exact .inl ⟨nofun, rfl⟩
      split at h
      · next e1 htime => exact .inr ⟨acc, scan_spec hscan, hmatched, _, e1, htime, .inr ⟨rfl, h⟩⟩
      · next error1 e1 hne htime =>
        cases h
        exact .inr ⟨acc, scan_spec hscan, hmatched, _, _, htime, .inl ⟨hne, rfl, rfl⟩⟩

/-- **Authentication is not bypassed.**  If an operation with a key that has a secure ID is
authorized when it begins and when it finishes, then at one of the two it carries a token of
the user.  The token is fresh at the begin of the operation, or it was made for the operation. -/
theorem user_authenticated {e e' f f' : Enforcement} {begin finish : Context} {purpose : Purpose}
    {keyid opHandle beginHandle : Nat} {authSet beginParams finishParams : AuthorizationSet}
    (hsid : ∃ param ∈ authSet, param.tag = .userSecureId)
    (hpurpose : isPublicKeyOperation purpose authSet = false) (hhandle : opHandle ≠ 0)
    (hbegin : e.authorizeOperation begin purpose keyid authSet beginParams beginHandle true =
      (.ok, e'))
    (hfinish : f.authorizeOperation finish purpose keyid authSet finishParams opHandle false =
      (.ok, f')) :
    (∃ token, TokenFor begin authSet beginParams token ∧
      ∃ timeout ∈ authSet, timeout.tag = .authTimeout ∧
        begin.authTokenTimedOut token timeout.integer = false) ∨
      ∃ token, TokenFor finish authSet finishParams token ∧ token.challenge = opHandle := by
  obtain ⟨sid, hmem, htag⟩ := hsid
  have hnot : ¬ isPublicKeyOperation purpose authSet := by rw [hpurpose]; nofun
  unfold authorizeOperation at hbegin hfinish
  rw [if_neg hnot] at hbegin
  rw [if_neg hnot, if_neg nofun] at hfinish
  obtain ⟨acc, hscan, hmatched, -⟩ := (authorizeBegin_cases hbegin).resolve_left fun h => h.1 rfl
  -- a key with a secure ID does not also say that no authentication is required
  obtain ⟨_, _, _, checked⟩ := hscan.checked hmem
  have hno := lastIndex_none.mp (checked.auth htag)
  cases htimeout : lastIndex .authTimeout authSet with
  | some i =>
    -- the token is checked when the operation begins
    have hsome : (lastIndex .authTimeout authSet).isSome := by rw [htimeout]; rfl
    obtain ⟨sid', hmem', htag', hmatch⟩ := hscan.authTokenMatched rfl
      (hmatched (hscan.authenticationRequired hmem htag hsome))
    obtain ⟨token, htoken, -, hfresh⟩ := authTokenMatches_spec hmem' htag' hmatch
    obtain ⟨timeout, hget, htag, hvalid⟩ := hfresh i htimeout rfl
    exact .inl ⟨token, htoken, timeout, mem_of_getElem? hget, htag, hvalid⟩
  | none =>
    have hnone := lastIndex_none.mp htimeout
    unfold authorizeUpdateOrFinish at hfinish
    have hchecked : ¬ (authSet.any fun param => param.tag == .noAuthRequired ||
        param.tag == .authTimeout) := by
      intro hany
      obtain ⟨param, hparam, hor⟩ := any_eq_true.mp hany
      simp [hno param hparam, hnone param hparam] at hor
    rw [if_neg hchecked] at hfinish
    dsimp only at hfinish
    split at hfinish
    · next hany =>
      obtain ⟨sid', hmem', hand⟩ := any_eq_true.mp hany
      rw [Bool.and_eq_true, beq_iff_eq] at hand
      obtain ⟨token, htoken, hchallenge, -⟩ := authTokenMatches_spec hmem' hand.1 hand.2
      exact .inr ⟨token, htoken, hchallenge rfl hhandle⟩
    · -- a key with a secure ID needs a token
      have hfound : (authSet.findTag .userSecureId).isSome :=
        List.find?_isSome.mpr ⟨sid, hmem, by rw [htag]; rfl⟩
      rw [hfound, Bool.or_true] at hfinish
      cases hfinish

/-- A key for encryption by the user with secure ID 5, with a token for every operation. -/
def sampleKey : AuthorizationSet :=
  [{ tag := .purpose, integer := 0 }, { tag := .userSecureId, longInteger := 5 },
    { tag := .userAuthType, integer := 3 }]

/-- A token of this user for the operation 7, by an authenticator of type 1. -/
def sampleToken : List UInt8 :=
  LittleEndian.encode 1 0 ++ LittleEndian.encode 8 7 ++ LittleEndian.encode 8 5 ++
    LittleEndian.encode 8 0 ++ BigEndian.encode 4 1 ++ List.replicate 40 0

/-- Nothing has expired. -/
def sampleContext : Context where
  activationDateValid _ := true
  expirationDatePassed _ := false
  authTokenTimedOut _ _ := false
  validateTokenSignature _ := true
  checkTime _ := 100
  updateTime := 100

def sampleEnforcement : Enforcement := ⟨some ⟨4, []⟩, some ⟨4, []⟩⟩

theorem user_authenticated_sampleKey :
    sampleEnforcement.authorizeOperation sampleContext .encrypt 1 sampleKey [] 0 true =
        (.ok, sampleEnforcement) ∧
      ∃ token, TokenFor sampleContext sampleKey [{ tag := .authToken, blob := sampleToken }] token ∧
        token.challenge = 7 := by
  have hbegin : sampleEnforcement.authorizeOperation sampleContext .encrypt 1 sampleKey [] 0 true =
      (.ok, sampleEnforcement) := by decide
  have hfinish : sampleEnforcement.authorizeOperation sampleContext .encrypt 1 sampleKey
      [{ tag := .authToken, blob := sampleToken }] 7 false = (.ok, sampleEnforcement) := by decide
  refine ⟨hbegin, (user_authenticated (by decide) (by decide) (by decide) hbegin
    hfinish).resolve_left ?_⟩
  rintro ⟨token, -, timeout, hmem, htag, -⟩
  revert timeout
  decide

end Enforcement

end Keymaster
