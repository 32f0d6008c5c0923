import Mathlib.Data.List.Basic
import Soms.Auth.Sessions
import Soms.Library.Txn

/-!
# The scopes of a token

`oauth_token` splits the scopes of a request at blanks and `store_token` joins them with commas.  A
refresh has to name the scopes as they are stored, and the response to a grant of several names
them with blanks between.
-/

namespace Soms.Auth.Scopes

open Txn

abbrev Text := List Char

local instance lawfulBEq_text : LawfulBEq Text := inferInstance

/-- A row of `oauth_tokens`.  The strings of its tokens are random, and it is known by its key. -/
structure OAuthToken where
  userId : Option UserId
  clientId : ClientId
  scope : Text
  expiresAt : Time
  refreshTokenExpiresAt : Time
  createdAt : Time
  deriving DecidableEq, Repr

/-- The scopes `_validate_token` finds in a row. -/
def OAuthToken.scopes (token : OAuthToken) : List Text := token.scope.splitOn ','

structure OAuthSettings extends Settings where
  /-- The ids and the secrets of the game and of the web client. -/
  gameClients : List (ClientId × Text)
  /-- `CLIENT_CREDENTIALS_SCOPES` -/
  clientCredentialsScopes : List Text
  /-- A refresh token does not expire at once. -/
  refresh_pos : 0 < refreshTokenExpire

structure State where
  now : Time
  tokens : Table OAuthToken
  /-- The owner of a registered client. -/
  clients : ClientId → Text → Option UserId
  /-- `oauth:code:{client_id}:{code}`: the user and the scopes. -/
  codes : ClientId → Text → Option (UserId × Text)
  /-- Whether a user is active. -/
  users : UserId → Option Bool
  /-- `authenticate_user` -/
  authenticate : Text → Text → Option UserId

inductive Grant where
  /-- With the message of the Turnstile check where it is made and fails. -/
  | password (username password : Text) (turnstile : Option Text)
  | refreshToken (refreshToken : Option TokenId)
  | authorizationCode (code : Option Text)
  | clientCredentials
  deriving DecidableEq, Repr

structure Request where
  clientId : ClientId
  clientSecret : Text
  scope : Text
  grant : Grant
  deriving DecidableEq, Repr

structure TokenResponse where
  expiresIn : Time
  refreshToken : TokenId
  scope : Text
  deriving DecidableEq, Repr

inductive OAuthError where
  | verificationFailed (message : Text)
  | unknownClient
  | signinInfoRequired
  | passwordScope
  | incorrectSignin
  | refreshTokenRequired
  | invalidRefreshToken
  | otherClient
  | mismatchScope
  | authCodeRequired
  | invalidAuthCode
  | accountRestricted
  | scopeNotAllowed (disallowed : List Text)
  deriving DecidableEq, Repr

/-- The `error` of the response. -/
def OAuthError.error : OAuthError → String
  | verificationFailed _ | signinInfoRequired | refreshTokenRequired | authCodeRequired =>
    "invalid_request"
  | unknownClient | otherClient => "invalid_client"
  | passwordScope | mismatchScope | scopeNotAllowed _ => "invalid_scope"
  | incorrectSignin | invalidRefreshToken | invalidAuthCode | accountRestricted => "invalid_grant"

variable (cfg : OAuthSettings)

/-! ## Storing a token -/

namespace State

/-- The tokens of a user for a client. -/
def tokensOf (uid : Option UserId) (cid : ClientId) (s : State) : List (TokenId × OAuthToken) :=
  s.tokens.toList.filter fun x => x.2.userId == uid && x.2.clientId == cid

/-- The tokens that `store_token` deletes. -/
def outdated (uid : Option UserId) (cid : ClientId) (s : State) : List TokenId :=
  let tokens := s.tokensOf uid cid
  if cfg.enableMultiDeviceLogin then
    let active := (tokens.filter fun x => decide (s.now < x.2.expiresAt)).insertionSort
      fun x y => y.2.createdAt ≤ x.2.createdAt
    (tokens.filter fun x => decide (x.2.expiresAt ≤ s.now)).map Prod.fst ++
      if cfg.maxTokensPerClient ≤ active.length then
        Auth.State.surplus cfg.maxTokensPerClient (active.map Prod.fst)
      else []
  else tokens.map Prod.fst

/-- `store_token`; the key of the new token is `s.tokens.next`. -/
def storeToken (uid : Option UserId) (cid : ClientId) (scopes : List Text) (s : State) : State :=
  { s with
    tokens := ((s.outdated cfg uid cid).foldl Table.delete s.tokens).insert
      ⟨uid, cid, [','].intercalate scopes, s.now + cfg.accessTokenExpire,
        s.now + cfg.refreshTokenExpire, s.now⟩ }

/-- `get_token_by_refresh_token` -/
def byRefreshToken (tid : TokenId) (s : State) : Option OAuthToken :=
  (s.tokens.row tid).filter fun token => decide (s.now < token.refreshTokenExpiresAt)

end State

/-- A token is stored, and the response names its scopes. -/
def issue (uid : Option UserId) (cid : ClientId) (scopes : List Text) (scope : Text) :
    Txn State OAuthError TokenResponse := do
  let tid ← read fun s => s.tokens.next
  write (State.storeToken cfg uid cid scopes)
  return { expiresIn := cfg.accessTokenExpire, refreshToken := tid, scope := scope }

/-! ## The grants -/

/-- The client of a request, which need not be registered if it is one of the game's. -/
def authenticateClient (request : Request) : Txn State OAuthError (Option UserId) := do
  let client ← read fun s => s.clients request.clientId request.clientSecret
  refuse (fun _ => client = none ∧ (request.clientId, request.clientSecret) ∉ cfg.gameClients)
    .unknownClient
  return client

/-- What follows a failed or a successful login has no part in the tokens. -/
def passwordGrant (request : Request) (username password : Text) :
    Txn State OAuthError TokenResponse := do
  let scopes := request.scope.splitOn ' '
  refuse (fun _ => username = [] ∨ password = []) .signinInfoRequired
  refuse (fun _ => scopes ≠ [['*']]) .passwordScope
  let uid ← require (fun s => (s.authenticate username password).filter fun uid =>
    s.users uid = some true) .incorrectSignin
  issue cfg (some uid) request.clientId scopes request.scope

def refreshGrant (request : Request) (refreshToken : Option TokenId) :
    Txn State OAuthError TokenResponse := do
  let tid ← require (fun _ => refreshToken) .refreshTokenRequired
  let token ← require (State.byRefreshToken tid) .invalidRefreshToken
  refuse (fun _ => token.clientId ≠ request.clientId) .otherClient
  refuse (fun _ => token.scope ≠ request.scope) .mismatchScope
  issue cfg token.userId request.clientId (request.scope.splitOn ' ') request.scope

/-- `get_user_by_authorization_code`, of a code with scopes. -/
def State.code (cid : ClientId) (code : Text) (s : State) : Option (UserId × Text) :=
  (s.codes cid code).filter fun entry => decide (entry.2 ≠ [])

def State.takeCode (cid : ClientId) (code : Text) (s : State) : State :=
  { s with
    codes := Function.update s.codes cid (Function.update (s.codes cid) code none) }

def authorizationCodeGrant (request : Request) (client : Option UserId) (code : Option Text) :
    Txn State OAuthError TokenResponse := do
  refuse (fun _ => client = none) .unknownClient
  let code ← require (fun _ => code.filter fun c => decide (c ≠ [])) .authCodeRequired
  let entry ← require (State.code request.clientId code) .invalidAuthCode
  write (State.takeCode request.clientId code)
  let isActive ← require (fun s => s.users entry.1) .invalidAuthCode
  refuse (fun _ => isActive = false) .accountRestricted
  let scopes := entry.2.splitOn ','
  issue cfg (some entry.1) request.clientId scopes ([' '].intercalate scopes)

def clientCredentialsGrant (request : Request) (client : Option UserId) :
    Txn State OAuthError TokenResponse := do
  let owner ← require (fun _ => client) .unknownClient
  let scopes := request.scope.splitOn ' '
  let disallowed := scopes.filter fun scope => decide (scope ∉ cfg.clientCredentialsScopes)
  refuse (fun _ => disallowed ≠ []) (.scopeNotAllowed disallowed)
  issue cfg (if "delegate".toList ∈ scopes then some owner else none) request.clientId scopes
    ([' '].intercalate scopes)

def oauthToken (request : Request) : Txn State OAuthError TokenResponse := do
  match request.grant with
  | .password username password turnstile =>
    require (fun _ => match turnstile with | none => some () | some _ => none)
      (.verificationFailed (turnstile.getD []))
    let _ ← authenticateClient cfg request
    passwordGrant cfg request username password
  | .refreshToken refreshToken =>
    let _ ← authenticateClient cfg request
    refreshGrant cfg request refreshToken
  | .authorizationCode code =>
    let client ← authenticateClient cfg request
    authorizationCodeGrant cfg request client code
  | .clientCredentials =>
    let client ← authenticateClient cfg request
    clientCredentialsGrant cfg request client

/-! ## Refreshing a token -/

/-- The scopes that `store_token` is given for a request. -/
def State.requested (s : State) (request : Request) : List Text :=
  match request.grant with
  | .authorizationCode code =>
    (((code.bind (s.code request.clientId)).map Prod.snd).getD []).splitOn ','
  | _ => request.scope.splitOn ' '

/-- The refresh token of a response, presented with the scope of that response. -/
def refreshRequest (request : Request) (response : TokenResponse) : Request :=
  { request with
    scope := response.scope, grant := .refreshToken (some response.refreshToken) }

def State.later (wait : Time) (s : State) : State := { s with now := s.now + wait }

/-- Refreshes in a row, each some time after the one before. -/
def refreshes (request : Request) : List Time → TokenResponse → Txn State OAuthError TokenResponse
  | [], response => pure response
  | wait :: waits, response => do
    write (State.later wait)
    let next ← oauthToken cfg (refreshRequest request response)
    refreshes request waits next

/-- Every number of refreshes in a row succeeds, each before its token expires, and the last token
grants the same scopes to the same user and client as the first. -/
def Kept (request : Request) (response : TokenResponse) (s : State) : Prop :=
  ∃ token, s.tokens.row response.refreshToken = some token ∧
    ∀ waits, (∀ wait ∈ waits, wait < cfg.refreshTokenExpire) →
      Returns (refreshes cfg request waits response) s fun last t =>
        ∃ renewed, t.tokens.row last.refreshToken = some renewed ∧
          renewed.scopes = token.scopes ∧ renewed.userId = token.userId ∧
          renewed.clientId = token.clientId

variable {cfg} {s t : State} {request : Request} {response : TokenResponse} {uid : Option UserId}
  {cid : ClientId} {scopes : List Text} {scope : Text}

/-! ### The two separators -/

theorem not_mem_intercalate {c d : Char} (hne : c ≠ d) (h : ∀ scope ∈ scopes, c ∉ scope) :
    c ∉ [d].intercalate scopes := by
  induction scopes with
  | nil => simp
  | cons first others ih =>
    have hfirst : c ∉ first := h first List.mem_cons_self
    have hothers : c ∉ [d].intercalate others :=
      ih fun scope hscope => h scope (List.mem_cons_of_mem _ hscope)
    cases others with
    | nil => simpa using hfirst
    | cons second others =>
      rw [List.intercalate_cons_cons]
      simp [hne, hfirst, hothers]

/-- The scopes read alike with blanks and with commas between only if there are not two. -/
theorem intercalate_eq_iff (hne : scopes ≠ []) (hblank : ∀ scope ∈ scopes, ' ' ∉ scope) :
    [' '].intercalate scopes = [','].intercalate scopes ↔ scopes.length = 1 := by
  cases scopes with
  | nil => exact absurd rfl hne
  | cons first others =>
    cases others with
    | nil => simp
    | cons second others =>
      refine iff_of_false (fun h => ?_) (by simp)
      have hmem : ' ' ∈ [' '].intercalate (first :: second :: others) := by
        simp [List.intercalate_cons_cons]
      rw [h] at hmem
      exact not_mem_intercalate (by decide) hblank hmem

/-! ### What a grant stores -/

/-- The client of the request is registered or one of the game's. -/
def Known (cfg : OAuthSettings) (request : Request) (s : State) : Prop :=
  s.clients request.clientId request.clientSecret ≠ none ∨
    (request.clientId, request.clientSecret) ∈ cfg.gameClients

/-- A response names a token by which it can be refreshed. -/
structure Refreshable (cfg : OAuthSettings) (request : Request) (uid : Option UserId)
    (stored : Text) (response : TokenResponse) (s : State) : Prop where
  known : Known cfg request s
  row : ∃ expiresAt, s.tokens.row response.refreshToken =
    some ⟨uid, request.clientId, stored, expiresAt, s.now + cfg.refreshTokenExpire, s.now⟩

theorem issue_ok (h : issue cfg uid cid scopes scope s = (.ok response, t)) :
    response.scope = scope ∧ t.now = s.now ∧ t.clients = s.clients ∧
      t.tokens.row response.refreshToken = some ⟨uid, cid, [','].intercalate scopes,
        s.now + cfg.accessTokenExpire, s.now + cfg.refreshTokenExpire, s.now⟩ := by
  simp only [issue, bind_ok, read_ok, write_ok, pure_ok] at h
  obtain ⟨tid, u, ⟨rfl, rfl⟩, _, v, rfl, rfl, rfl⟩ := h
  refine ⟨rfl, rfl, rfl, ?_⟩
  simp [State.storeToken, Table.next_foldl_delete]

theorem authenticateClient_ok {client : Option UserId}
    (h : authenticateClient cfg request s = (.ok client, t)) :
    t = s ∧ client = s.clients request.clientId request.clientSecret ∧ Known cfg request s := by
  simp only [authenticateClient, bind_ok, read_ok, refuse_ok, pure_ok] at h
  obtain ⟨_, u, ⟨rfl, rfl⟩, _, v, ⟨hclient, rfl⟩, rfl, rfl⟩ := h
  refine ⟨rfl, rfl, ?_⟩
  rw [Known]
  tauto

theorem issue_refreshable (hknown : Known cfg request s)
    (h : issue cfg uid request.clientId scopes scope s = (.ok response, t)) :
    Refreshable cfg request uid ([','].intercalate scopes) response t := by
  obtain ⟨-, hnow, hclients, hrow⟩ := issue_ok h
  refine ⟨?_, ⟨_, by rw [hrow, hnow]⟩⟩
  rw [Known, hclients]
  exact hknown

/-- Every grant stores the scopes of the request with commas between, and names them with blanks
between in its response. -/
theorem oauthToken_ok (h : oauthToken cfg request s = (.ok response, t)) :
    ∃ uid, Refreshable cfg request uid ([','].intercalate (s.requested request)) response t ∧
      response.scope = [' '].intercalate (s.requested request) := by
  obtain ⟨cid, secret, scope, grant⟩ := request
  cases grant with
  | password username password turnstile =>
    simp only [oauthToken, bind_ok, require_ok] at h
    obtain ⟨_, _, ⟨-, rfl⟩, client, _, hclient, h⟩ := h
    obtain ⟨rfl, -, hknown⟩ := authenticateClient_ok hclient
    simp only [passwordGrant, bind_ok, refuse_ok, require_ok] at h
    obtain ⟨_, _, ⟨-, rfl⟩, _, _, ⟨-, rfl⟩, uid, _, ⟨-, rfl⟩, hissue⟩ := h
    refine ⟨some uid, issue_refreshable hknown hissue, ?_⟩
    rw [(issue_ok hissue).1]
    exact (List.intercalate_splitOn ' ').symm
  | refreshToken refreshToken =>
    simp only [oauthToken, bind_ok] at h
    obtain ⟨client, _, hclient, h⟩ := h
    obtain ⟨rfl, -, hknown⟩ := authenticateClient_ok hclient
    simp only [refreshGrant, bind_ok, refuse_ok, require_ok] at h
    obtain ⟨tid, _, ⟨-, rfl⟩, token, _, ⟨-, rfl⟩, _, _, ⟨-, rfl⟩, _, _, ⟨-, rfl⟩, hissue⟩ := h
    refine ⟨token.userId, issue_refreshable hknown hissue, ?_⟩
    rw [(issue_ok hissue).1]
    exact (List.intercalate_splitOn ' ').symm
  | authorizationCode code =>
    simp only [oauthToken, bind_ok] at h
    obtain ⟨client, _, hclient, h⟩ := h
    obtain ⟨rfl, -, hknown⟩ := authenticateClient_ok hclient
    simp only [authorizationCodeGrant, bind_ok, refuse_ok, require_ok, write_ok] at h
    obtain ⟨_, _, ⟨-, rfl⟩, found, _, ⟨hfound, rfl⟩, entry, _, ⟨hentry, rfl⟩, _, _, rfl, active, _,
      ⟨-, rfl⟩, _, _, ⟨-, rfl⟩, hissue⟩ := h
    obtain ⟨rfl, -⟩ := Option.filter_eq_some_iff.mp hfound
    refine ⟨some entry.1, ?_⟩
    simp only [State.requested, Option.bind_some, hentry, Option.map_some, Option.getD_some]
    have hknown' : Known cfg _ (State.takeCode cid found _) := hknown
    exact ⟨issue_refreshable hknown' hissue, (issue_ok hissue).1⟩
  | clientCredentials =>
    simp only [oauthToken, bind_ok] at h
    obtain ⟨client, _, hclient, h⟩ := h
    obtain ⟨rfl, -, hknown⟩ := authenticateClient_ok hclient
    simp only [clientCredentialsGrant, bind_ok, refuse_ok, require_ok] at h
    obtain ⟨owner, _, ⟨-, rfl⟩, _, _, ⟨-, rfl⟩, hissue⟩ := h
    exact ⟨_, issue_refreshable hknown hissue, (issue_ok hissue).1⟩

/-! ### Refreshes in a row -/

theorem returns_issue : Returns (issue cfg uid cid scopes scope) s fun response t =>
    issue cfg uid cid scopes scope s = (.ok response, t) := ⟨_, _, rfl, rfl⟩

theorem returns_authenticateClient (h : Known cfg request s) :
    Returns (authenticateClient cfg request) s fun _ t => t = s := by
  refine returns_after (read_ok.mpr ⟨rfl, rfl⟩) (returns_refuse ?_ (returns_pure rfl))
  rw [Known] at h
  tauto

/-- A refresh within the life of the token, with the scope that is stored. -/
theorem Refreshable.refresh {wait : Time} (h : Refreshable cfg request uid scope response s)
    (hwait : wait < cfg.refreshTokenExpire) (hblank : ' ' ∉ scope)
    (hscope : response.scope = scope) :
    Returns (oauthToken cfg (refreshRequest request response)) (s.later wait)
      fun next t => Refreshable cfg request uid scope next t ∧ next.scope = scope := by
  obtain ⟨expiresAt, hrow⟩ := h.row
  have hknown : Known cfg request (s.later wait) := h.known
  have hlive : s.now + wait < s.now + cfg.refreshTokenExpire := Nat.add_lt_add_left hwait _
  have hstored : State.byRefreshToken response.refreshToken (s.later wait) = some
      ⟨uid, request.clientId, scope, expiresAt, s.now + cfg.refreshTokenExpire, s.now⟩ := by
    simp [State.byRefreshToken, State.later, hrow, hlive]
  have hsplit : response.scope.splitOn ' ' = [scope] := by
    rw [hscope, List.splitOn_eq_singleton hblank]
  show Returns (authenticateClient cfg (refreshRequest request response) >>= fun _ =>
    refreshGrant cfg (refreshRequest request response) (some response.refreshToken)) _ _
  refine Returns.bind (P := fun _ t => t = s.later wait) (returns_authenticateClient hknown) ?_
  rintro client _ rfl
  refine returns_require rfl (returns_require hstored ?_)
  refine returns_refuse (fun hne => hne rfl) (returns_refuse (fun hne => hne hscope.symm) ?_)
  refine returns_issue.mono fun next t hissue => ?_
  rw [show (refreshRequest request response).scope = response.scope from rfl, hsplit] at hissue
  have hnext := issue_refreshable hknown hissue
  rw [List.intercalate_singleton] at hnext
  exact ⟨hnext, (issue_ok hissue).1.trans hscope⟩

/-- By induction on the refreshes: each leaves a token with the scope as it was stored. -/
theorem Refreshable.refreshes {waits : List Time}
    (h : Refreshable cfg request uid scope response s)
    (hwaits : ∀ wait ∈ waits, wait < cfg.refreshTokenExpire) (hblank : ' ' ∉ scope)
    (hscope : response.scope = scope) :
    Returns (refreshes cfg request waits response) s fun last t =>
      Refreshable cfg request uid scope last t := by
  induction waits generalizing response s with
  | nil => exact returns_pure h
  | cons wait waits ih =>
    have hfirst := h.refresh (hwaits wait List.mem_cons_self) hblank hscope
    refine returns_after (a := ()) (write_ok.mpr rfl) (hfirst.bind fun next t hnext => ?_)
    exact ih hnext.1 (fun wait hwait => hwaits wait (List.mem_cons_of_mem _ hwait)) hnext.2

/-- A refresh that succeeds has named the scope as it is stored. -/
theorem Refreshable.scope_eq {next : TokenResponse}
    (h : Refreshable cfg request uid scope response s)
    (hok : oauthToken cfg (refreshRequest request response) (s.later 0) = (.ok next, t)) :
    response.scope = scope := by
  obtain ⟨expiresAt, hrow⟩ := h.row
  simp only [oauthToken, refreshRequest, bind_ok] at hok
  obtain ⟨client, _, hclient, hok⟩ := hok
  obtain ⟨rfl, -, -⟩ := authenticateClient_ok hclient
  simp only [refreshGrant, bind_ok, refuse_ok, require_ok] at hok
  obtain ⟨_, _, ⟨htid, rfl⟩, token, _, ⟨htoken, rfl⟩, _, _, ⟨-, rfl⟩, _, _, ⟨hsame, rfl⟩, -⟩ := hok
  obtain ⟨hfound, -⟩ := Option.filter_eq_some_iff.mp htoken
  rw [← Option.some.inj htid] at hfound
  obtain rfl := Option.some.inj (hrow.symm.trans hfound)
  exact (not_not.mp hsame).symm

/-- The grants of a response outlive every number of refreshes exactly if the response names one
scope. -/
theorem scopes_kept_iff (h : oauthToken cfg request s = (.ok response, t))
    (hblank : ∀ scope ∈ s.requested request, ' ' ∉ scope) :
    Kept cfg request response t ↔ (s.requested request).length = 1 := by
  obtain ⟨uid, hrefreshable, hscope⟩ := oauthToken_ok h
  have hne : s.requested request ≠ [] := by
    unfold State.requested
    split <;> exact List.splitOn_ne_nil _ _
  rw [← intercalate_eq_iff hne hblank, ← hscope]
  constructor
  · rintro ⟨token, -, hkept⟩
    obtain ⟨last, u, hrun, -⟩ := hkept [0] (by simp [cfg.refresh_pos])
    simp only [refreshes, bind_ok, write_ok] at hrun
    obtain ⟨_, _, rfl, next, v, hok, -⟩ := hrun
    exact hrefreshable.scope_eq hok
  · intro hsame
    obtain ⟨expiresAt, hrow⟩ := hrefreshable.row
    have hcomma : ' ' ∉ [','].intercalate (s.requested request) :=
      not_mem_intercalate (by decide) hblank
    refine ⟨_, hrow, fun waits hwaits => ?_⟩
    refine (hrefreshable.refreshes hwaits hcomma hsame).mono fun last u hlast => ?_
    obtain ⟨expiresAt', hrow'⟩ := hlast.row
    exact ⟨_, hrow', rfl, rfl, rfl⟩

def sampleSettings : OAuthSettings where
  enableTotpVerification := true
  enableEmailVerification := true
  enableMultiDeviceLogin := true
  maxTokensPerClient := 10
  accessTokenExpire := 86400
  refreshTokenExpire := 1296000
  verifies := standard.verifies
  gameClients := [(5, ['g'])]
  clientCredentialsScopes := ["chat.write".toList, "delegate".toList]
  refresh_pos := by decide

/-- A user has given the client 9 a code for some scopes. -/
def withCode (scopes : Text) : State where
  now := 0
  tokens := Table.empty
  clients cid secret := if cid = 9 ∧ secret = ['s'] then some 1 else none
  codes cid code := if cid = 9 ∧ code = ['c'] then some (7, scopes) else none
  users _ := some true
  authenticate _ _ := none

def codeRequest : Request := ⟨9, ['s'], ['*'], .authorizationCode (some ['c'])⟩

theorem kept_identify : ∃ response t,
    oauthToken sampleSettings codeRequest (withCode "identify".toList) = (.ok response, t) ∧
      Kept sampleSettings codeRequest response t :=
  ⟨_, _, rfl, (scopes_kept_iff (s := withCode "identify".toList) rfl (by decide)).mpr (by decide)⟩

/-- The response to a code for two scopes names them with a blank between, and its refresh token
does not go with that scope. -/
theorem not_kept_two : ∃ response t,
    oauthToken sampleSettings codeRequest (withCode "identify,public".toList) = (.ok response, t) ∧
      response.scope = "identify public".toList ∧
      (oauthToken sampleSettings (refreshRequest codeRequest response) (t.later 0)).1 =
        .error .mismatchScope ∧
      ¬ Kept sampleSettings codeRequest response t := by
  refine ⟨_, _, rfl, by decide, by decide, ?_⟩
  rintro ⟨token, -, hkept⟩
  obtain ⟨last, t, hrun, -⟩ := hkept [0] (by decide)
  exact Bool.false_ne_true (congrArg (fun r => r.1.isOk) hrun)

end Soms.Auth.Scopes
