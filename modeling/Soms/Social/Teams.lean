import Soms.Library.Run
import Soms.Library.Table
import Soms.Library.Txn

/-!
# Teams

The endpoints of `router/private/team.py`.  A request makes its checks on one snapshot of
the database and commits its writes later, when other requests may have committed theirs.
The creation of a team commits twice: the team, and then the membership of its leader.
-/

namespace Soms.Social.Teams

open Txn

abbrev UserId := Nat
abbrev TeamId := Nat
abbrev RequestId := Nat

inductive ErrorType where
  | accountRestricted
  | alreadyInTeam
  | nameAlreadyExists
  | shortNameAlreadyExists
  | teamNotFound
  | notTeamLeader
  | leaderNotFound
  | leaderNotTeamMember
  | joinRequestAlreadyExists
  | joinRequestNotFound
  | userNotFound
  | userAlreadyTeamMember
  | userNotTeamMember
  | cannotLeaveAsTeamLeader
  deriving DecidableEq, Repr

/-- The message key, the status and the text. -/
def ErrorType.value : ErrorType → String × Nat × String
  | .accountRestricted =>
    ("account_restricted", 403, "Your account is restricted and cannot perform this action.")
  | .alreadyInTeam => ("already_in_team", 403, "You are already in a team")
  | .nameAlreadyExists => ("name_already_exists", 409, "Name already exists")
  | .shortNameAlreadyExists => ("short_name_already_exists", 409, "Short name already exists")
  | .teamNotFound => ("team_not_found", 404, "Team not found")
  | .notTeamLeader => ("not_team_leader", 403, "You are not the team leader")
  | .leaderNotFound => ("leader_not_found", 404, "Leader not found")
  | .leaderNotTeamMember => ("leader_not_team_member", 404, "Leader is not a member of the team")
  | .joinRequestAlreadyExists =>
    ("join_request_already_exists", 409, "Join request already exists")
  | .joinRequestNotFound => ("join_request_not_found", 404, "Join request not found")
  | .userNotFound => ("user_not_found", 404, "User not found")
  | .userAlreadyTeamMember =>
    ("user_already_team_member", 409, "User is already a member of the team")
  | .userNotTeamMember => ("user_not_team_member", 404, "User is not a member of the team")
  | .cannotLeaveAsTeamLeader =>
    ("cannot_leave_as_team_leader", 403, "You cannot leave because you are the team leader")

structure Team where
  name : String
  shortName : String
  leaderId : UserId
  deriving DecidableEq, Repr

structure TeamMember where
  userId : UserId
  teamId : TeamId
  deriving DecidableEq, Repr

structure TeamRequest where
  userId : UserId
  teamId : TeamId
  deriving DecidableEq, Repr

/-- What a request that passed its checks has to write. -/
inductive Pending where
  | create (leaderId : UserId) (name shortName : String)
  /-- The new team is committed and its leader is not a member yet. -/
  | enroll (leaderId : UserId) (k : TeamId)
  | update (k : TeamId) (name shortName : Option String) (leaderId : Option UserId)
  | delete (k : TeamId) (members : List UserId)
  | requestJoin (k : TeamId) (uid : UserId)
  | accept (k : TeamId) (uid : UserId)
  | reject (k : TeamId) (uid : UserId)
  | remove (uid : UserId)
  deriving DecidableEq, Repr

structure State where
  registered : UserId → Bool
  restricted : UserId → Bool
  teams : Table Team
  members : List TeamMember
  requests : List TeamRequest
  pending : RequestId → Option Pending

/-! ## The checks -/

/-- There is a team with the name. -/
def State.named (s : State) (f : Team → String) (name : String) : Bool :=
  (s.teams.find fun team => f team == name).isSome

/-- The user is in some team. -/
def State.enrolled (s : State) (uid : UserId) : Bool := s.members.any fun m => m.userId == uid

def createTeam (currentUser : UserId) (name shortName : String) : Txn State ErrorType Pending := do
  refuse (fun s => s.restricted currentUser = true) .accountRestricted
  refuse (fun s => s.enrolled currentUser = true) .alreadyInTeam
  refuse (fun s => s.named Team.name name = true) .nameAlreadyExists
  refuse (fun s => s.named Team.shortName shortName = true) .shortNameAlreadyExists
  pure (.create currentUser name shortName)

/-- The team, if the user leads it. -/
def ledTeam (currentUser : UserId) (k : TeamId) : Txn State ErrorType Team := do
  refuse (fun s => s.restricted currentUser = true) .accountRestricted
  let team ← require (fun s => s.teams.row k) .teamNotFound
  refuse (fun _ => team.leaderId ≠ currentUser) .notTeamLeader
  pure team

def updateTeam (currentUser : UserId) (k : TeamId) (name shortName : Option String)
    (leaderId : Option UserId) : Txn State ErrorType Pending := do
  let team ← ledTeam currentUser k
  refuse (fun s => name.any (s.named Team.name) = true) .nameAlreadyExists
  refuse (fun s => shortName.any (s.named Team.shortName) = true) .shortNameAlreadyExists
  refuse (fun s => leaderId.any (fun l => !s.registered l) = true) .leaderNotFound
  refuse (fun s => leaderId.any (fun l => !s.members.contains ⟨l, k⟩) = true) .leaderNotTeamMember
  -- a column that keeps its value is not written
  pure (.update k name shortName (leaderId.filter (· ≠ team.leaderId)))

def deleteTeam (currentUser : UserId) (k : TeamId) : Txn State ErrorType Pending := do
  let _ ← ledTeam currentUser k
  let members ← read fun s => s.members.filter fun m => m.teamId == k
  pure (.delete k (members.map TeamMember.userId))

def requestJoinTeam (currentUser : UserId) (k : TeamId) : Txn State ErrorType Pending := do
  refuse (fun s => s.restricted currentUser = true) .accountRestricted
  let _ ← require (fun s => s.teams.row k) .teamNotFound
  refuse (fun s => s.enrolled currentUser = true) .alreadyInTeam
  refuse (fun s => ⟨currentUser, k⟩ ∈ s.requests) .joinRequestAlreadyExists
  pure (.requestJoin k currentUser)

/-- `post`: the request is accepted. -/
def handleRequest (currentUser : UserId) (k : TeamId) (uid : UserId) (post : Bool) :
    Txn State ErrorType Pending := do
  let _ ← ledTeam currentUser k
  refuse (fun s => ⟨uid, k⟩ ∉ s.requests) .joinRequestNotFound
  refuse (fun s => s.registered uid = false) .userNotFound
  refuse (fun s => post = true ∧ s.enrolled uid = true) .userAlreadyTeamMember
  pure (if post then .accept k uid else .reject k uid)

def kickMember (currentUser : UserId) (k : TeamId) (uid : UserId) :
    Txn State ErrorType Pending := do
  refuse (fun s => s.restricted currentUser = true) .accountRestricted
  let team ← require (fun s => s.teams.row k) .teamNotFound
  refuse (fun _ => team.leaderId ≠ currentUser ∧ uid ≠ currentUser) .notTeamLeader
  refuse (fun s => ⟨uid, k⟩ ∉ s.members) .userNotTeamMember
  -- whoever is to be removed
  refuse (fun _ => team.leaderId = currentUser) .cannotLeaveAsTeamLeader
  pure (.remove uid)

inductive Request where
  | create (currentUser : UserId) (name shortName : String)
  | update (currentUser : UserId) (k : TeamId) (name shortName : Option String)
      (leaderId : Option UserId)
  | delete (currentUser : UserId) (k : TeamId)
  | requestJoin (currentUser : UserId) (k : TeamId)
  | handle (currentUser : UserId) (k : TeamId) (uid : UserId) (post : Bool)
  | kick (currentUser : UserId) (k : TeamId) (uid : UserId)

def Request.checks : Request → Txn State ErrorType Pending
  | .create currentUser name shortName => createTeam currentUser name shortName
  | .update currentUser k name shortName leaderId =>
    updateTeam currentUser k name shortName leaderId
  | .delete currentUser k => deleteTeam currentUser k
  | .requestJoin currentUser k => requestJoinTeam currentUser k
  | .handle currentUser k uid post => handleRequest currentUser k uid post
  | .kick currentUser k uid => kickMember currentUser k uid

/-! ## The commits -/

/-- Add a membership.  A user has one row at most, and the team must be there. -/
def State.addMember (k : TeamId) (uid : UserId) (s : State) : Option State :=
  if (s.teams.row k).isSome ∧ s.enrolled uid = false then
    some { s with members := s.members ++ [⟨uid, k⟩] }
  else none

/-- The rows after the commit, unless the database refuses them. -/
def Pending.write : Pending → State → Option State
  | .create leaderId name shortName, s =>
    some { s with teams := s.teams.insert ⟨name, shortName, leaderId⟩ }
  | .enroll leaderId k, s => s.addMember k leaderId
  | .update k name shortName leaderId, s =>
    some { s with
      teams := s.teams.modify k fun team =>
        { name := name.getD team.name
          shortName := shortName.getD team.shortName
          leaderId := leaderId.getD team.leaderId } }
  | .delete k members, s =>
    -- rows are deleted by their user, and none may still refer to the team
    let left := s.members.filter fun m => !members.contains m.userId
    if left.any (fun m => m.teamId == k) || s.requests.any (fun q => q.teamId == k) then none
    else some { s with members := left, teams := s.teams.delete k }
  | .requestJoin k uid, s =>
    if (s.teams.row k).isSome ∧ ⟨uid, k⟩ ∉ s.requests then
      some { s with requests := s.requests ++ [⟨uid, k⟩] }
    else none
  | .accept k uid, s =>
    (s.addMember k uid).map fun t => { t with requests := t.requests.filter (· ≠ ⟨uid, k⟩) }
  | .reject k uid, s => some { s with requests := s.requests.filter (· ≠ ⟨uid, k⟩) }
  | .remove uid, s => some { s with members := s.members.filter fun m => m.userId ≠ uid }

/-- What is left to write after the commit. -/
def Pending.next : Pending → State → Option Pending
  | .create leaderId _ _, s => some (.enroll leaderId s.teams.next)
  | _, _ => none

def State.setPending (r : RequestId) (p : Option Pending) (s : State) : State :=
  { s with pending := Function.update s.pending r p }

inductive Event where
  | start (r : RequestId) (request : Request)
  | commit (r : RequestId)
  /-- The request ends without a further commit. -/
  | fail (r : RequestId)
  | register (uid : UserId)
  | setRestricted (uid : UserId) (restricted : Bool)

def State.after (s : State) : Event → State
  | .start r request =>
    match s.pending r, request.checks s with
    | none, (.ok p, _) => s.setPending r (some p)
    | _, _ => s
  | .commit r =>
    match s.pending r with
    | none => s
    | some p =>
      match p.write s with
      | some t => t.setPending r (p.next s)
      | none => s.setPending r none
  | .fail r => s.setPending r none
  | .register uid => { s with registered := Function.update s.registered uid true }
  | .setRestricted uid restricted =>
    { s with restricted := Function.update s.restricted uid restricted }

def State.empty : State := ⟨fun _ => false, fun _ => false, .empty, [], [], fun _ => none⟩

inductive Step : State → Event → State → Prop
  | mk (s : State) (e : Event) : Step s e (s.after e)

end Soms.Social.Teams
