import Soms.Auth.Sessions

/-!
# Authorization codes and mail codes

The redemption of an authorization code for a token and of a mailed code for the
verification of a session, each request a sequence of steps that the steps of other
requests and crashes may come between.
-/

namespace Soms.Auth

abbrev RequestId := Nat

/-! ## Authorization codes -/

namespace Code

/-- A code is known by its key: the strings are random. -/
abbrev CodeId := Nat

/-- The hash `oauth:code:{client_id}:{code}`. -/
structure Grant where
  clientId : ClientId
  userId : UserId
  scopes : String
  deriving DecidableEq, Repr

inductive Phase where
  | idle
  /-- `user_id` was read. -/
  | readUser (clientId : ClientId) (code : CodeId) (userId : Option UserId)
  /-- `user_id` and `scopes` were there. -/
  | read (code : CodeId) (grant : Grant)
  /-- The fields of the hash were deleted. -/
  | deleted (code : CodeId) (grant : Grant)
  | over
  deriving DecidableEq, Repr

structure State where
  codes : Table Grant
  phase : RequestId → Phase
  /-- The tokens that were stored, with their codes. -/
  tokens : List (CodeId × Grant)

inductive Event where
  | issue (grant : Grant)
  | expire (code : CodeId)
  | readUser (r : RequestId) (clientId : ClientId) (code : CodeId)
  | readScopes (r : RequestId)
  | delete (r : RequestId)
  /-- The user is looked up and the token stored, if there is an active user. -/
  | store (r : RequestId) (active : Bool)
  | crash (r : RequestId)

namespace State

def setPhase (r : RequestId) (p : Phase) (s : State) : State :=
  { s with phase := Function.update s.phase r p }

/-- The hash of a client's code. -/
def hash (clientId : ClientId) (code : CodeId) (s : State) : Option Grant :=
  (s.codes.row code).filter fun grant => grant.clientId == clientId

def after (s : State) : Event → State
  | .issue grant => { s with codes := s.codes.insert grant }
  | .expire code => { s with codes := s.codes.delete code }
  | .readUser r clientId code =>
    if s.phase r = .idle then
      s.setPhase r (.readUser clientId code ((s.hash clientId code).map Grant.userId))
    else s
  | .readScopes r =>
    match s.phase r with
    | .readUser clientId code userId =>
      match userId, (s.hash clientId code).map Grant.scopes with
      | some userId, some scopes =>
        if scopes = "" then s.setPhase r .over
        else s.setPhase r (.read code ⟨clientId, userId, scopes⟩)
      | _, _ => s.setPhase r .over
    | _ => s
  | .delete r =>
    match s.phase r with
    | .read code grant => { s with codes := s.codes.delete code }.setPhase r (.deleted code grant)
    | _ => s
  | .store r active =>
    match s.phase r with
    | .deleted code grant =>
      if active then { s with tokens := (code, grant) :: s.tokens }.setPhase r .over
      else s.setPhase r .over
    | _ => s
  | .crash r => s.setPhase r .over

def empty : State := ⟨.empty, fun _ => .idle, []⟩

end State

end Code

/-! ## Mail codes -/

namespace Mail

abbrev VerificationId := Nat

structure EmailVerification where
  userId : UserId
  code : String
  isUsed : Bool
  expiresAt : Time
  deriving DecidableEq, Repr

/-- A row of the user that is unused and has not expired. -/
def EmailVerification.good (uid : UserId) (now : Time) (row : EmailVerification) : Bool :=
  row.userId == uid && !row.isUsed && decide (now < row.expiresAt)

inductive Phase where
  | idle
  /-- The request has begun; its transaction sees the rows as they were then. -/
  | begun (uid : UserId) (tid : TokenId) (code : String) (view : Table EmailVerification)
  /-- Redis had the code. -/
  | looked (uid : UserId) (tid : TokenId) (code : String) (view : Table EmailVerification)
    (id : VerificationId)
  /-- The row was found unused. -/
  | found (uid : UserId) (tid : TokenId) (code : String) (id : VerificationId)
  /-- The row was marked as used. -/
  | used (uid : UserId) (tid : TokenId) (code : String) (id : VerificationId)
  /-- The key was deleted. -/
  | deleted (uid : UserId) (tid : TokenId) (id : VerificationId)
  | over

structure State where
  now : Time
  rows : Table EmailVerification
  /-- `email_verification:{user_id}:{code}` -/
  key : UserId → String → Option VerificationId
  phase : RequestId → Phase
  /-- The codes that were accepted, with the tokens whose session was verified. -/
  verified : List (VerificationId × TokenId)

inductive Event where
  /-- `create_verification_record` with a new code, whose key may fail to be set. -/
  | send (uid : UserId) (code : String) (cached : Bool)
  | expireKey (uid : UserId) (code : String)
  /-- A request to verify the session of a token. -/
  | begin (r : RequestId) (uid : UserId) (tid : TokenId) (code : String)
  | lookUp (r : RequestId)
  | find (r : RequestId)
  | use (r : RequestId)
  | delete (r : RequestId)
  /-- `mark_session_verified` -/
  | verify (r : RequestId)
  | crash (r : RequestId)
  | advance (seconds : Time)

namespace State

def setPhase (r : RequestId) (p : Phase) (s : State) : State :=
  { s with phase := Function.update s.phase r p }

def setKey (uid : UserId) (code : String) (id : Option VerificationId) (s : State) : State :=
  { s with key := Function.update s.key uid (Function.update (s.key uid) code id) }

def after (s : State) : Event → State
  | .send uid code cached =>
    match s.rows.find (EmailVerification.good uid s.now) with
    | some _ => s
    | none =>
      let s' := { s with rows := s.rows.insert ⟨uid, code, false, s.now + 600⟩ }
      if cached then s'.setKey uid code (some s.rows.next) else s'
  | .expireKey uid code => s.setKey uid code none
  | .begin r uid tid code =>
    match s.phase r with
    | .idle => s.setPhase r (.begun uid tid code s.rows)
    | _ => s
  | .lookUp r =>
    match s.phase r with
    | .begun uid tid code view =>
      match s.key uid code with
      | some id => s.setPhase r (.looked uid tid code view id)
      | none => s.setPhase r .over
    | _ => s
  | .find r =>
    match s.phase r with
    | .looked uid tid code view id =>
      match (view.row id).filter fun row =>
          EmailVerification.good uid s.now row && row.code == code with
      | some _ => s.setPhase r (.found uid tid code id)
      | none => s.setPhase r .over
    | _ => s
  | .use r =>
    match s.phase r with
    | .found uid tid code id =>
      { s with
        rows := s.rows.modify id fun row => { row with isUsed := true } }.setPhase r
        (.used uid tid code id)
    | _ => s
  | .delete r =>
    match s.phase r with
    | .used uid tid code id => (s.setKey uid code none).setPhase r (.deleted uid tid id)
    | _ => s
  | .verify r =>
    match s.phase r with
    | .deleted _ tid id => { s with verified := (id, tid) :: s.verified }.setPhase r .over
    | _ => s
  | .crash r => s.setPhase r .over
  | .advance seconds => { s with now := s.now + seconds }

def empty : State := ⟨0, .empty, fun _ _ => none, fun _ => .idle, []⟩

end State

end Mail

end Soms.Auth
