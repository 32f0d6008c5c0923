import Soms.Auth.Codes

/-!
# Passwords and what they give access to

The password reset of `password_reset_service.py` next to the password and refresh
grants and the web sessions of `web_session_service.py`.  Each request is a sequence
of steps, with the steps of other requests, failures and crashes between them.
-/

namespace Soms.Auth.Account

abbrev Email := String
abbrev SessionId := Nat

/-- How many times the password of a user was set. -/
abbrev Version := Nat

/-- `password_reset:code:{email}`, with the number of the request that issued it. -/
structure ResetData where
  number : Nat
  userId : UserId
  email : Email
  resetCode : String
  used : Bool
  deriving DecidableEq, Repr

/-- A token, with the password that was proven for it or for the token that it was
refreshed from. -/
structure Token where
  userId : UserId
  proven : Version
  expiresAt : Time
  refreshTokenExpiresAt : Time
  deriving DecidableEq, Repr

/-- `web-site:session:{digest}`, with the password that was proven for it. -/
structure WebSession where
  userId : UserId
  proven : Version
  expiresAt : Time
  deriving DecidableEq, Repr

/-- `web-site:user-sessions:{user_id}` -/
structure Membership where
  digests : List SessionId
  expiresAt : Option Time
  deriving DecidableEq, Repr

/-- How far a reset has come. -/
inductive Stage where
  /-- The code was checked. -/
  | checked
  /-- The new password was committed. -/
  | changed
  /-- `invalidate_user_tokens` has read the tokens. -/
  | selected (tokens : List TokenId)
  /-- The tokens were deleted. -/
  | loggedOut
  /-- `invalidate_web_sessions` has read the sessions. -/
  | read (digests : List SessionId)
  /-- The sessions were deleted. -/
  | cleared
  /-- The list of the sessions was deleted. -/
  | unlisted
  /-- An exception was raised. -/
  | failed
  deriving DecidableEq, Repr

inductive Phase where
  | idle
  /-- A password or a refresh token was accepted, and a token is to be stored. -/
  | granting (uid : UserId) (proven : Version)
  /-- A password was accepted, and a web session is to be created. -/
  | opening (uid : UserId) (proven : Version)
  | opened (uid : UserId) (sid : SessionId)
  | listed (uid : UserId)
  | resetting (data : ResetData) (stage : Stage)
  | over
  deriving DecidableEq, Repr

structure State where
  now : Time
  password : UserId → Version
  resets : Email → Option ResetData
  /-- The number of the next reset code. -/
  issued : Nat
  tokens : Table Token
  sessions : Table WebSession
  members : UserId → Membership
  phase : RequestId → Phase
  /-- The numbers of the codes for which a password was set. -/
  changes : List Nat

inductive Event where
  /-- `request_password_reset` -/
  | issue (email : Email) (code : String)
  /-- The code expires, or its mail could not be sent. -/
  | dropCode (email : Email)
  /-- A password login proves the password. -/
  | prove (r : RequestId) (uid : UserId)
  /-- A refresh grant finds its token. -/
  | find (r : RequestId) (tid : TokenId)
  /-- `store_token`, which deletes some tokens of the user. -/
  | store (r : RequestId) (outdated : List TokenId)
  /-- A login on the web site proves the password. -/
  | proveWeb (r : RequestId) (uid : UserId)
  | setSession (r : RequestId)
  | addMember (r : RequestId)
  | expireMembers (r : RequestId)
  /-- The checks of `reset_password`. -/
  | check (r : RequestId) (email : Email) (code : String) (longEnough : Bool)
  | commitPassword (r : RequestId)
  | selectTokens (r : RequestId)
  | deleteTokens (r : RequestId)
  | readMembers (r : RequestId)
  | deleteSessions (r : RequestId)
  | deleteMembers (r : RequestId)
  | markUsed (r : RequestId)
  /-- A step of a reset raises; the transaction is rolled back. -/
  | fail (r : RequestId)
  /-- The code is restored, unless its ten minutes are over. -/
  | restore (r : RequestId) (expired : Bool)
  | crash (r : RequestId)
  | advance (seconds : Time)

/-- The users of the mail addresses, and the settings. -/
structure Site extends Settings where
  userOf : Email → Option UserId

variable (site : Site)

namespace State

def setPhase (r : RequestId) (p : Phase) (s : State) : State :=
  { s with phase := Function.update s.phase r p }

def setReset (email : Email) (data : Option ResetData) (s : State) : State :=
  { s with resets := Function.update s.resets email data }

def setMembers (uid : UserId) (m : Membership) (s : State) : State :=
  { s with members := Function.update s.members uid m }

/-- Delete tokens. -/
def deleteTokens (p : TokenId → Token → Bool) (s : State) : State :=
  { s with
    tokens :=
      { row := fun tid => (s.tokens.row tid).filter fun token => !p tid token
        next := s.tokens.next
        fresh := by
          intro tid htid
          simp [s.tokens.fresh tid htid] } }

def deleteSessions (gone : List SessionId) (s : State) : State :=
  { s with
    sessions :=
      { row := fun sid => if sid ∈ gone then none else s.sessions.row sid
        next := s.sessions.next
        fresh := by
          intro sid hsid
          simp [s.sessions.fresh sid hsid] } }

/-- The tokens of a user. -/
def tokensOf (uid : UserId) (s : State) : List TokenId :=
  (s.tokens.toList.filter fun x => x.2.userId == uid).map Prod.fst

/-- The set of a user's sessions as Redis has it: without the expired one. -/
def membership (uid : UserId) (s : State) : Membership :=
  if (s.members uid).expiresAt.all fun expiresAt => decide (s.now < expiresAt) then s.members uid
  else ⟨[], none⟩

/-- The reset data with which the checks of `reset_password` pass. -/
def checkedReset (email : Email) (code : String) (longEnough : Bool) (s : State) :
    Option ResetData :=
  (s.resets email).filter fun data =>
    data.resetCode == code && !data.used && data.email == email &&
      site.userOf email == some data.userId && longEnough

/-- A step of a reset, taken at its stage. -/
def atStage (r : RequestId) (stage : Stage) (f : ResetData → State → State) (s : State) : State :=
  match s.phase r with
  | .resetting data reached => if reached = stage then f data s else s
  | _ => s

def after (s : State) : Event → State
  | .issue email code =>
    match site.userOf email with
    | some uid =>
      { s with issued := s.issued + 1 }.setReset email (some ⟨s.issued, uid, email, code, false⟩)
    | none => s
  | .dropCode email => s.setReset email none
  | .prove r uid =>
    if s.phase r = .idle then s.setPhase r (.granting uid (s.password uid)) else s
  | .find r tid =>
    if s.phase r = .idle then
      match (s.tokens.row tid).filter fun token => decide (s.now < token.refreshTokenExpiresAt) with
      | some token => s.setPhase r (.granting token.userId token.proven)
      | none => s.setPhase r .over
    else s
  | .store r outdated =>
    match s.phase r with
    | .granting uid proven =>
      let s := s.deleteTokens fun tid token => token.userId == uid && decide (tid ∈ outdated)
      { s with
        tokens := s.tokens.insert
          ⟨uid, proven, s.now + site.accessTokenExpire, s.now + site.refreshTokenExpire⟩ }.setPhase
        r .over
    | _ => s
  | .proveWeb r uid =>
    if s.phase r = .idle then s.setPhase r (.opening uid (s.password uid)) else s
  | .setSession r =>
    match s.phase r with
    | .opening uid proven =>
      { s with sessions := s.sessions.insert ⟨uid, proven, s.now + 604800⟩ }.setPhase r
        (.opened uid s.sessions.next)
    | _ => s
  | .addMember r =>
    match s.phase r with
    | .opened uid sid =>
      let m := s.membership uid
      (s.setMembers uid { m with digests := sid :: m.digests }).setPhase r (.listed uid)
    | _ => s
  | .expireMembers r =>
    match s.phase r with
    | .listed uid =>
      let m := s.membership uid
      let m := if m.digests = [] then m else { m with expiresAt := some (s.now + 604800) }
      (s.setMembers uid m).setPhase r .over
    | _ => s
  | .check r email code longEnough =>
    if s.phase r = .idle then
      match s.checkedReset site email code longEnough with
      | some data => s.setPhase r (.resetting data .checked)
      | none => s.setPhase r .over
    else s
  | .commitPassword r =>
    s.atStage r .checked fun data s =>
      { s with
        password := Function.update s.password data.userId (s.password data.userId + 1)
        changes := data.number :: s.changes }.setPhase r (.resetting data .changed)
  | .selectTokens r =>
    s.atStage r .changed fun data s =>
      s.setPhase r (.resetting data (.selected (s.tokensOf data.userId)))
  | .deleteTokens r =>
    match s.phase r with
    | .resetting data (.selected tokens) =>
      (s.deleteTokens fun tid _ => decide (tid ∈ tokens)).setPhase r (.resetting data .loggedOut)
    | _ => s
  | .readMembers r =>
    s.atStage r .loggedOut fun data s =>
      s.setPhase r (.resetting data (.read (s.membership data.userId).digests))
  | .deleteSessions r =>
    match s.phase r with
    | .resetting data (.read digests) =>
      (s.deleteSessions digests).setPhase r (.resetting data .cleared)
    | _ => s
  | .deleteMembers r =>
    s.atStage r .cleared fun data s =>
      (s.setMembers data.userId ⟨[], none⟩).setPhase r (.resetting data .unlisted)
  | .markUsed r =>
    s.atStage r .unlisted fun data s =>
      (s.setReset data.email (some { data with used := true })).setPhase r .over
  | .fail r =>
    match s.phase r with
    | .resetting data _ => s.setPhase r (.resetting data .failed)
    | _ => s
  | .restore r expired =>
    s.atStage r .failed fun data s =>
      (s.setReset data.email (if expired then none else some { data with used := false })).setPhase
        r .over
  | .crash r => s.setPhase r .over
  | .advance seconds => { s with now := s.now + seconds }

def empty : State where
  now := 0
  password := fun _ => 0
  resets := fun _ => none
  issued := 0
  tokens := .empty
  sessions := .empty
  members := fun _ => ⟨[], none⟩
  phase := fun _ => .idle
  changes := []

end State

end Soms.Auth.Account
