import Mathlib.Data.List.Sort
import Soms.Library.Run
import Soms.Library.Table

/-!
# Tokens and login sessions

The password and refresh grants of `router/auth.py`, the session verification of
`router/v2/session_verify.py` and the hourly cleanup, on the tokens and the login
sessions.  Times are in seconds; accounts exist and are active.
-/

namespace Soms.Auth

abbrev UserId := Nat
abbrev ClientId := Nat
abbrev TokenId := Nat
abbrev Time := Nat

/-- A way to verify a session. -/
inductive Method where
  | totp | mail
  deriving DecidableEq, Repr

structure Settings where
  enableTotpVerification : Bool
  enableEmailVerification : Bool
  enableMultiDeviceLogin : Bool
  maxTokensPerClient : Nat
  accessTokenExpire : Time
  refreshTokenExpire : Time
  /-- One of the two verifications is enabled. -/
  verifies : (enableTotpVerification || enableEmailVerification) = true

structure OAuthToken where
  userId : UserId
  clientId : ClientId
  expiresAt : Time
  refreshTokenExpiresAt : Time
  createdAt : Time
  deriving DecidableEq, Repr

structure LoginSession where
  userId : UserId
  tokenId : Option TokenId
  isVerified : Bool
  createdAt : Time
  expiresAt : Time
  deriving DecidableEq, Repr

/-- A token is known by its key: the strings of its row are random. -/
structure State where
  now : Time
  tokens : Table OAuthToken
  sessions : Table LoginSession
  /-- The users with a TOTP key. -/
  hasTotp : UserId → Bool
  /-- `session_verification_method:{user_id}:{token_id}` -/
  loginMethod : UserId → TokenId → Option Method

variable (cfg : Settings)

namespace State

/-! ## Tokens -/

/-- Delete tokens; the sessions that refer to them refer to none then. -/
def deleteTokens (p : TokenId → Bool) (s : State) : State :=
  { s with
    tokens :=
      { row := fun tid => if p tid then none else s.tokens.row tid
        next := s.tokens.next
        fresh := by
          intro tid htid
          simp [s.tokens.fresh tid htid] }
    sessions := s.sessions.map fun x =>
      if x.tokenId.any p then { x with tokenId := none } else x }

/-- `active_tokens[max_tokens_per_client - 1 :]` -/
def surplus (maxTokens : Nat) (ids : List TokenId) : List TokenId :=
  if maxTokens = 0 then ids.getLast?.toList else ids.drop (maxTokens - 1)

/-- The tokens of a user for a client. -/
def tokensOf (uid : UserId) (cid : ClientId) (s : State) : List (TokenId × OAuthToken) :=
  s.tokens.toList.filter fun x => x.2.userId == uid && x.2.clientId == cid

/-- The oldest tokens over the limit, of those whose access token has not expired. -/
def evicted (uid : UserId) (cid : ClientId) (s : State) : List TokenId :=
  let active := ((s.tokensOf uid cid).filter fun x => decide (s.now < x.2.expiresAt)).insertionSort
    fun x y => y.2.createdAt ≤ x.2.createdAt
  if cfg.maxTokensPerClient ≤ active.length then
    surplus cfg.maxTokensPerClient (active.map Prod.fst)
  else []

/-- The tokens that `store_token` deletes. -/
def outdated (uid : UserId) (cid : ClientId) (s : State) : List TokenId :=
  if cfg.enableMultiDeviceLogin then
    ((s.tokensOf uid cid).filter fun x => decide (x.2.expiresAt ≤ s.now)).map Prod.fst ++
      s.evicted cfg uid cid
  else (s.tokensOf uid cid).map Prod.fst

/-- `store_token`; the key of the new token is `s.tokens.next`. -/
def storeToken (uid : UserId) (cid : ClientId) (s : State) : State :=
  let s := s.deleteTokens fun tid => decide (tid ∈ s.outdated cfg uid cid)
  { s with
    tokens := s.tokens.insert
      ⟨uid, cid, s.now + cfg.accessTokenExpire, s.now + cfg.refreshTokenExpire, s.now⟩ }

/-! ## Sessions -/

/-- `check_is_need_verification` -/
def needsVerification (uid : UserId) (tid : TokenId) (s : State) : Bool :=
  (cfg.enableTotpVerification || cfg.enableEmailVerification) &&
    s.sessions.toList.any fun x => x.2.userId == uid && !x.2.isVerified &&
      decide (s.now < x.2.expiresAt) && x.2.tokenId == some tid

def setLoginMethod (uid : UserId) (tid : TokenId) (method : Option Method) (s : State) : State :=
  { s with
    loginMethod := Function.update s.loginMethod uid
      (Function.update (s.loginMethod uid) tid method) }

/-- `mark_session_verified` -/
def markSessionVerified (uid : UserId) (tid : TokenId) (s : State) : State :=
  { s with
    sessions := s.sessions.map fun x =>
      if x.userId = uid ∧ x.isVerified = false ∧ s.now < x.expiresAt ∧ x.tokenId = some tid then
        { x with isVerified := true }
      else x }.setLoginMethod uid tid none

/-- `create_session` -/
def createSession (uid : UserId) (tid : TokenId) (isVerified : Bool) (s : State) : State :=
  { s with sessions := s.sessions.insert ⟨uid, some tid, isVerified, s.now, s.now + 86400⟩ }

/-- The token of a request. -/
def live (tid : TokenId) (s : State) : Option OAuthToken :=
  (s.tokens.row tid).filter fun token => decide (s.now < token.expiresAt)

/-- The token of a refresh grant. -/
def refreshable (tid : TokenId) (cid : ClientId) (s : State) : Option OAuthToken :=
  (s.tokens.row tid).filter fun token =>
    decide (s.now < token.refreshTokenExpiresAt) && token.clientId == cid

end State

/-- How a login is verified, given whether the API version supports TOTP and whether the
device is trusted. -/
def verificationMethod (supportsTotp trusted hasTotp : Bool) : Option Method :=
  if supportsTotp && cfg.enableTotpVerification && hasTotp then some .totp
  else if !trusted && cfg.enableEmailVerification then some .mail
  else none

/-- The result of a verification. -/
inductive Verification where
  /-- The key was right. -/
  | checked
  /-- It succeeds without a check. -/
  | unchecked
  /-- There is no TOTP key any more, and the method is now mail. -/
  | switched
  | refused
  deriving DecidableEq, Repr

/-- What `verify_session` does with a key that is right for some methods. -/
def verification (method : Method) (hasTotp : Bool) (right : Method → Bool) : Verification :=
  match method with
  | .totp =>
    if hasTotp then if right .totp then .checked else .refused
    else if cfg.enableEmailVerification then .switched else .unchecked
  | .mail =>
    if cfg.enableEmailVerification then if right .mail then .checked else .refused
    else if hasTotp then .refused else .unchecked

inductive Event where
  /-- A password login. -/
  | login (uid : UserId) (cid : ClientId) (supportsTotp trusted : Bool)
  | refresh (tid : TokenId) (cid : ClientId)
  /-- A request through `get_client_user`. -/
  | request (tid : TokenId) (supportsTotp : Bool)
  /-- `verify_session` with a key that is right for some methods. -/
  | verify (tid : TokenId) (supportsTotp : Bool) (right : Method → Bool)
  /-- `fallback_email` -/
  | fallback (tid : TokenId)
  /-- `invalidate_user_tokens` -/
  | invalidateTokens (uid : UserId)
  /-- A user sets up TOTP or removes it. -/
  | setTotp (uid : UserId) (hasTotp : Bool)
  | cleanupExpiredSessions
  | cleanupUnverifiedSessions
  | cleanupOutdatedTokens
  | cleanupOutdatedSessions
  | advance (seconds : Time)

namespace State

/-- The method that a token's session is to be verified by. -/
def chosenMethod (supportsTotp : Bool) (uid : UserId) (tid : TokenId) (s : State) : Method :=
  if supportsTotp then
    (s.loginMethod uid tid).getD (if s.hasTotp uid then .totp else .mail)
  else .mail

/-- The verification of a token whose session needs one. -/
def verifyWith (supportsTotp : Bool) (right : Method → Bool) (uid : UserId) (tid : TokenId)
    (s : State) : State :=
  let method := s.chosenMethod supportsTotp uid tid
  let s := if supportsTotp then s.setLoginMethod uid tid (some method) else s
  match verification cfg method (s.hasTotp uid) right with
  | .checked | .unchecked => s.markSessionVerified uid tid
  | .switched => s.setLoginMethod uid tid (some .mail)
  | .refused => s

/-- The state after an event.  A refused request changes nothing. -/
def after (s : State) : Event → State
  | .login uid cid supportsTotp trusted =>
    let tid := s.tokens.next
    let method := verificationMethod cfg supportsTotp trusted (s.hasTotp uid)
    let s := s.storeToken cfg uid cid
    let s := if method = none ∧ trusted = false then s.markSessionVerified uid tid else s
    let s := s.createSession uid tid method.isNone
    if method.isSome then s.setLoginMethod uid tid method else s
  | .refresh tid cid =>
    match s.refreshable tid cid with
    | some token => s.storeToken cfg token.userId cid
    | none => s
  | .request tid supportsTotp =>
    match s.live tid with
    | some token =>
      if s.needsVerification cfg token.userId tid && supportsTotp then
        s.setLoginMethod token.userId tid (some (s.chosenMethod true token.userId tid))
      else s
    | none => s
  | .verify tid supportsTotp right =>
    match s.live tid with
    | some token =>
      if s.needsVerification cfg token.userId tid then
        s.verifyWith cfg supportsTotp right token.userId tid
      else s
    | none => s
  | .fallback tid =>
    match s.live tid with
    | some token =>
      if (s.loginMethod token.userId tid).isSome then
        s.setLoginMethod token.userId tid (some .mail)
      else s
    | none => s
  | .invalidateTokens uid =>
    s.deleteTokens fun tid => (s.tokens.row tid).any fun token => token.userId == uid
  | .setTotp uid hasTotp => { s with hasTotp := Function.update s.hasTotp uid hasTotp }
  | .cleanupExpiredSessions =>
    { s with sessions := s.sessions.filter fun x => !(decide (x.expiresAt < s.now) && !x.isVerified) }
  | .cleanupUnverifiedSessions =>
    { s with
      sessions := s.sessions.filter fun x => !(!x.isVerified && decide (x.createdAt + 3600 < s.now)) }
  | .cleanupOutdatedTokens =>
    s.deleteTokens fun tid => (s.tokens.row tid).any fun token =>
      decide (token.refreshTokenExpiresAt < s.now)
  | .cleanupOutdatedSessions =>
    { s with sessions := s.sessions.filter fun x => !(x.isVerified && x.tokenId.isNone) }
  | .advance seconds => { s with now := s.now + seconds }

def empty : State := ⟨0, .empty, .empty, fun _ => false, fun _ _ => none⟩

end State

/-- The server takes its events one after another. -/
inductive Step : State → Event → State → Prop
  | mk (s : State) (e : Event) : Step s e (s.after cfg e)

variable {cfg}

@[simp] theorem step_iff {s t : State} {e : Event} : Step cfg s e t ↔ t = s.after cfg e :=
  ⟨fun | .mk _ _ => rfl, fun h => h ▸ .mk s e⟩

namespace State

variable {s : State} {p : TokenId → Bool} {uid uid' : UserId} {cid : ClientId}
  {tid tid' : TokenId} {method : Option Method} {isVerified : Bool}

@[simp] theorem row_deleteTokens :
    (s.deleteTokens p).tokens.row tid = if p tid then none else s.tokens.row tid := rfl

@[simp] theorem next_deleteTokens : (s.deleteTokens p).tokens.next = s.tokens.next := rfl

@[simp] theorem now_deleteTokens : (s.deleteTokens p).now = s.now := rfl

@[simp] theorem next_storeToken :
    (s.storeToken cfg uid cid).tokens.next = s.tokens.next + 1 := rfl

@[simp] theorem now_storeToken : (s.storeToken cfg uid cid).now = s.now := rfl

theorem row_storeToken : (s.storeToken cfg uid cid).tokens.row tid =
    if tid = s.tokens.next then
      some ⟨uid, cid, s.now + cfg.accessTokenExpire, s.now + cfg.refreshTokenExpire, s.now⟩
    else if tid ∈ s.outdated cfg uid cid then none else s.tokens.row tid := by
  simp [storeToken]

@[simp] theorem tokens_setLoginMethod : (s.setLoginMethod uid tid method).tokens = s.tokens := rfl

@[simp] theorem sessions_setLoginMethod :
    (s.setLoginMethod uid tid method).sessions = s.sessions := rfl

@[simp] theorem hasTotp_setLoginMethod :
    (s.setLoginMethod uid tid method).hasTotp = s.hasTotp := rfl

@[simp] theorem now_setLoginMethod : (s.setLoginMethod uid tid method).now = s.now := rfl

@[simp] theorem tokens_markSessionVerified : (s.markSessionVerified uid tid).tokens = s.tokens := rfl

@[simp] theorem now_markSessionVerified : (s.markSessionVerified uid tid).now = s.now := rfl

@[simp] theorem tokens_createSession :
    (s.createSession uid tid isVerified).tokens = s.tokens := rfl

@[simp] theorem now_createSession : (s.createSession uid tid isVerified).now = s.now := rfl

theorem live_eq_some {token : OAuthToken} :
    s.live tid = some token ↔ s.tokens.row tid = some token ∧ s.now < token.expiresAt := by
  simp [live, Option.filter_eq_some_iff]

theorem refreshable_eq_some {token : OAuthToken} :
    s.refreshable tid cid = some token ↔ s.tokens.row tid = some token ∧
      s.now < token.refreshTokenExpiresAt ∧ token.clientId = cid := by
  simp [refreshable, Option.filter_eq_some_iff]

end State

/-! ## Worked runs -/

/-- Both verifications, several devices, and the periods of the default configuration. -/
def standard : Settings where
  enableTotpVerification := true
  enableEmailVerification := true
  enableMultiDeviceLogin := true
  maxTokensPerClient := 10
  accessTokenExpire := 86400
  refreshTokenExpire := 2592000
  verifies := rfl

/-- The history of some events, the newest first. -/
def authRun (es : List Event) : List (Event × State) :=
  historyOf (State.after standard) State.empty es

theorem trace_authRun (es : List Event) : Trace (Step standard) (fun _ _ => True) State.empty
    (authRun es) (endState State.empty (authRun es)) :=
  trace_historyOf State.empty es fun e _ s => .mk s e

end Soms.Auth
