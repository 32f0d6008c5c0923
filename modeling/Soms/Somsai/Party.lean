import Mathlib.Data.List.Sort
import Soms.Somsai.Data

/-!
# Parties and reservations

`somsai_party_service.py`.  A function of the source that never rejects is a map
of the store; one that may reject is a transaction body.
-/

namespace Soms.Somsai

open Txn

/-! ## Activity rows -/

namespace World

/-- The activity row of a user, as `activity` would create it when missing. -/
def activityRow (w : World) (now : Time) (uid : UserId) : Activity :=
  (w.activity uid).getD { lastSeenAt := now }

/-- `activity`, followed by an update of the row. -/
def setActivity (now : Time) (uid : UserId) (f : Activity → Activity) (w : World) : World :=
  { w with activity := Function.update w.activity uid (some (f (w.activityRow now uid))) }

/-- `activity`: get the row or create it. -/
def touchActivity (now : Time) (uid : UserId) (w : World) : World :=
  w.setActivity now uid id

def setParty (now : Time) (uid : UserId) (p : Option PartyId) (w : World) : World :=
  w.setActivity now uid fun a => { a with partyId := p }

def setReservation (now : Time) (uid : UserId) (r : Option ReservationId) (w : World) : World :=
  w.setActivity now uid fun a => { a with reservationId := r }

def setMatch (now : Time) (uid : UserId) (m : Option MatchId) (w : World) : World :=
  w.setActivity now uid fun a => { a with matchId := m }

def partyOf (w : World) (uid : UserId) : Option PartyId := (w.activity uid).bind (·.partyId)

def reservationOf (w : World) (uid : UserId) : Option ReservationId :=
  (w.activity uid).bind (·.reservationId)

def matchOf (w : World) (uid : UserId) : Option MatchId := (w.activity uid).bind (·.matchId)

/-! ## Users and relationships -/

/-- The condition of `active_user`. -/
def isActive (w : World) (uid : UserId) : Bool :=
  match w.users.row uid with
  | some user => user.isActive && !user.isBot && !user.restricted
  | none => false

/-- A block in either direction. -/
def isBlocked (w : World) (a b : UserId) : Bool := w.env.blocked a b || w.env.blocked b a

/-! ## Reservations -/

/-- Clear the pointers of one member of a released reservation. -/
def releaseMember (now : Time) (r : ReservationId) (w : World) (uid : UserId) : World :=
  if w.reservationOf uid = some r then
    w.setActivity now uid fun a => { a with reservationId := none, matchId := none }
  else w.touchActivity now uid

/-- `release_reservation`. -/
def releaseReservation (now : Time) (w : World) (r : ReservationId) : World :=
  match w.reservations.row r with
  | none => w
  | some reservation =>
    let w := reservation.members.foldl (releaseMember now r) w
    if reservation.kind.isRanked then
      -- Tombstones keep delayed retries from recreating a released lease.
      { w with reservations := w.reservations.modify r fun x =>
          { x with released := true, expiresAt := now } }
    else { w with reservations := w.reservations.delete r }

/-- `expire_reservations`: only native Ranked leases expire by themselves. -/
def expireReservations (now : Time) (w : World) : World :=
  let expired := w.reservations.toList.filter fun x =>
    decide (x.2.expiresAt ≤ now) && !x.2.released
  expired.foldl
    (fun w x => if x.2.kind.isRanked then w.releaseReservation now x.1 else w) w

/-! ## Stale parties -/

/-- Whether the party keeps the member: a lease, a match or a recent heartbeat. -/
def retains (w : World) (cutoff : Time) (uid : UserId) : Bool :=
  match w.activity uid with
  | none => false
  | some a => a.reservationId.isSome || a.matchId.isSome || decide (cutoff ≤ a.lastSeenAt)

/-- Clear the party pointer of a dropped member, if it still names the party. -/
def dropPartyLink (p : PartyId) (w : World) (uid : UserId) : World :=
  match w.activity uid with
  | none => w
  | some a =>
    if a.partyId = some p then
      { w with activity := Function.update w.activity uid (some { a with partyId := none }) }
    else w

end World

/-- The party when only `members` stay. -/
def Party.keep (party : Party) (members : List UserId) : Party :=
  { party with
    members := members
    active := !members.isEmpty
    captainId := if party.captainId ∈ members then party.captainId
      else members.headD party.captainId
    revision := party.revision + 1 }

namespace World

/-- One turn of the loop of `expire_stale_parties`. -/
def expireStaleParty (cutoff : Time) (w : World) (p : PartyId) : World :=
  match w.parties.row p with
  | none => w
  | some party =>
    if party.active then
      let retained := party.members.filter (w.retains cutoff)
      let dropped := party.members.filter fun uid => !w.retains cutoff uid
      let w := dropped.foldl (dropPartyLink p) w
      if retained = party.members then w
      else { w with parties := w.parties.modify p fun party => party.keep retained }
    else w

/-- `expire_stale_parties`: fifteen seconds without a heartbeat drop a member. -/
def expireStaleParties (now : Time) (w : World) : World :=
  (w.parties.toList.map Prod.fst).foldl (expireStaleParty (now - seconds 15)) w

/-- `lock_somsai`, which opens every transaction. -/
def lockSomsai (now : Time) (w : World) : World :=
  (w.expireStaleParties now).expireReservations now

/-- The active party of a user. -/
def getParty (w : World) (uid : UserId) : Option (PartyId × Party) :=
  match w.partyOf uid with
  | none => none
  | some p =>
    match w.parties.row p with
    | none => none
    | some party => if party.active && decide (uid ∈ party.members) then some (p, party) else none

end World

/-! ## Bodies -/

/-- `active_user`. -/
def activeUser (uid : UserId) : Act Unit :=
  refuse (fun w => w.isActive uid = false) (reject "This player is unavailable for matches." 403)

/-- `get_party`. -/
def getParty (now : Time) (uid : UserId) : Act (Option (PartyId × Party)) := do
  write (World.touchActivity now uid)
  read fun w => w.getParty uid

/-- Reject when the user holds a reservation. -/
def assertIdle (now : Time) (uid : UserId) (message : String) : Act Unit := do
  write (World.touchActivity now uid)
  refuse (fun w => (w.reservationOf uid).isSome) (reject message)

/-- `assert_party_idle`. -/
def assertPartyIdle (now : Time) (party : Party) : Act Unit :=
  party.members.forM fun uid =>
    assertIdle now uid "Finish the match or cancel matchmaking first."

/-- The party without a leaving member; the captaincy passes to the next one. -/
def Party.leave (party : Party) (uid : UserId) : Party :=
  let members := party.members.filter (· ≠ uid)
  { party with
    members := members
    active := if members.isEmpty then false else party.active
    captainId := if party.captainId = uid then members.headD party.captainId else party.captainId
    revision := party.revision + 1 }

/-- `leave_party`. -/
def leaveParty (now : Time) (uid : UserId) : Act Unit := do
  let found ← getParty now uid
  onSome found fun x => do
    assertPartyIdle now x.2
    write (World.setParty now uid none)
    write fun w => { w with parties := w.parties.modify x.1 fun party => party.leave uid }

/-- `assert_not_blocked`. -/
def assertNotBlocked (inviter target : UserId) : Act Unit :=
  refuse (fun w => w.isBlocked inviter target) (reject "You cannot join this player's party." 403)

inductive PartyAction where
  | create | invite | accept | decline | leave
  deriving DecidableEq, Repr

/-- `target_username.strip().removeprefix("@").lower()`. -/
def normaliseUsername (name : String) : String :=
  let name := name.trimAscii.toString
  (if name.startsWith "@" then (name.drop 1).toString else name).toLower

/-- The target of an invitation, looked up by name when one is given. -/
def resolveTarget (action : PartyAction) (targetId : Option UserId)
    (targetUsername : Option String) : Act (Option UserId) :=
  match action, targetUsername with
  | .invite, some name => do
    refuse (fun _ => targetId.isSome) (reject "Specify either a username or an ID, not both." 422)
    refuse (fun _ => normaliseUsername name = "") (reject "Enter a player username." 422)
    let found ← require
      (fun w => w.users.find fun user => user.username.toLower = normaliseUsername name)
      (reject "No player with this username was found." 404)
    pure (some found.1)
  | _, _ => pure targetId

/-- A pending invitation to the user, if it has not expired. -/
def World.pendingInvite (w : World) (now : Time) (uid : UserId) (invitation : Option Nat) :
    Option (Nat × PartyInvite) :=
  match invitation with
  | none => none
  | some i =>
    match w.partyInvites.row i with
    | none => none
    | some invite =>
      if invite.targetId = uid ∧ invite.status = .pending ∧ now < invite.expiresAt then
        some (i, invite)
      else none

/-- The part of `party_action` that moves the user into the inviting party. -/
def acceptInvite (now : Time) (uid : UserId) (invite : PartyInvite) : Act Unit := do
  let party ← require
    (fun w => (w.parties.row invite.partyId).filter fun party =>
      party.active && decide (party.members.length < 2))
    (reject "The party has no free slots left.")
  refuse (fun _ => party.captainId ≠ invite.inviterId)
    (reject "The inviting captain has already left the party.")
  assertNotBlocked invite.inviterId uid
  assertPartyIdle now party
  activeUser party.captainId
  assertIdle now uid "Finish the match or matchmaking first."
  leaveParty now uid
  write fun w => { w with parties := w.parties.modify invite.partyId fun party =>
    { party with members := party.members ++ [uid], revision := party.revision + 1 } }
  write (World.setParty now uid (some invite.partyId))

/-- `party_accept` and `party_decline`. -/
def answerInvite (now : Time) (uid : UserId) (invitation : Option Nat) (accept : Bool) :
    Act Unit := do
  let found ← require (fun w => w.pendingInvite now uid invitation)
    (reject "This invitation is no longer available.")
  when accept (acceptInvite now uid found.2)
  write fun w => { w with partyInvites := w.partyInvites.modify found.1 fun invite =>
    { invite with status := if accept then .accepted else .declined } }

/-- The user's party, created when there is none. -/
def ensureParty (now : Time) (uid : UserId) : Act (PartyId × Party) := do
  let found ← getParty now uid
  match found with
  | some party => pure party
  | none => do
    assertIdle now uid "Finish the match or matchmaking first."
    let p ← read fun w => w.parties.next
    let party : Party := { captainId := uid, members := [uid] }
    write fun w => { w with parties := w.parties.insert party }
    write (World.setParty now uid (some p))
    pure (p, party)

/-- `party_invite`, once the party exists. -/
def inviteTo (now : Time) (uid : UserId) (p : PartyId) (party : Party) (targetId : Option UserId) :
    Act Unit := do
  let target ← require (fun _ => targetId.filter (· ≠ uid)) (reject "Specify another player." 422)
  refuse (fun _ => party.captainId ≠ uid) (reject "Only the party captain can invite players." 403)
  assertPartyIdle now party
  refuse (fun _ => 2 ≤ party.members.length) (reject "The party already has two players.")
  activeUser target
  refuse (fun w => w.isBlocked uid target) (reject "This player cannot be invited." 403)
  refuse
    (fun w => ((w.users.row target).any (·.pmFriendsOnly)) && !w.env.follows target uid)
    (reject "This player accepts invitations from friends only." 403)
  let previous ← read fun w => w.partyInvites.find fun invite =>
    decide (invite.partyId = p ∧ invite.targetId = target ∧ invite.status = .pending ∧
      now < invite.expiresAt)
  when previous.isNone do
    assertIdle now target "This player is currently in a match or matchmaking."
    let invite : PartyInvite :=
      { partyId := p, inviterId := uid, targetId := target, expiresAt := now + seconds 300 }
    write fun w => { w with partyInvites := w.partyInvites.insert invite }

/-- `party_action`. -/
def partyAction (now : Time) (uid : UserId) (action : PartyAction) (targetId : Option UserId)
    (invitation : Option Nat) (targetUsername : Option String) : Act Unit := do
  activeUser uid
  let targetId ← resolveTarget action targetId targetUsername
  match action with
  | .leave => leaveParty now uid
  | .accept => answerInvite now uid invitation true
  | .decline => answerInvite now uid invitation false
  | .create => do
    let _ ← ensureParty now uid
    pure ()
  | .invite => do
    let own ← ensureParty now uid
    inviteTo now uid own.1 own.2 targetId

/-- The checks that `reserve_members` makes of one member. -/
def checkReservable (now : Time) (uid : UserId) : Act Unit := do
  activeUser uid
  refuse (fun w => (w.nativeRooms uid).any fun native => decide (now < native.expiresAt))
    (reject "One of the players is in a regular multiplayer room.")
  assertIdle now uid "One of the players is already in matchmaking or a match."

/-- `reserve_members`. -/
def reserveMembers (now : Time) (captain : UserId) (members : List UserId)
    (kind : ReservationKind) (partyId : Option PartyId := none) : Act ReservationId := do
  refuse (fun _ => members = [] ∨ captain ∉ members ∨ ¬ members.Nodup)
    (reject "Invalid team composition." 422)
  (members.insertionSort (· ≤ ·)).forM (checkReservable now)
  let r ← read fun w => w.reservations.next
  let reservation : Reservation :=
    { captainId := captain, partyId := partyId, kind := kind, members := members,
      expiresAt := now + seconds 600 }
  write fun w => { w with reservations := w.reservations.insert reservation }
  write fun w => members.foldl (fun w uid => w.setReservation now uid (some r)) w
  pure r

/-- `native_reserve`: native Ranked leases are no longer given out. -/
def nativeReserve : Act Unit := raise (reject "Use official osu!lazer." 403)

/-- `renew_reservation`. -/
def renewReservation (now : Time) (r : ReservationId) : Act Unit := do
  refuse
    (fun w => ((w.reservations.row r).any fun x => !x.released && decide (now < x.expiresAt)) = false)
    (reject "The queue reservation expired." 404)
  write fun w => { w with reservations := w.reservations.modify r fun x =>
    { x with expiresAt := now + seconds 600 } }

/-- Whether the user's match pointer names the live match played in the room. -/
def World.inMatchOfRoom (w : World) (uid : UserId) (room : RoomId) : Bool :=
  ((w.matchOf uid).bind w.matchRows.row).any fun m =>
    decide (m.roomId = room) && !m.stage.final

/-- `claim_native_room`. -/
def claimNativeRoom (now : Time) (uid : UserId) (room : RoomId) : Act Unit := do
  activeUser uid
  write (World.touchActivity now uid)
  refuse (fun w => (w.reservationOf uid).isSome && !w.inMatchOfRoom uid room)
    (reject "The player is already in a SOMSAI/Ranked queue or match.")
  refuse
    (fun w => (w.nativeRooms uid).any fun row =>
      decide (row.roomId ≠ room) && decide (now < row.expiresAt))
    (reject "The player is already in another room.")
  let row : NativeRoom := { roomId := room, expiresAt := now + seconds 45 }
  write fun w => { w with nativeRooms := Function.update w.nativeRooms uid (some row) }

/-- `release_native_room`. -/
def World.releaseNativeRoom (uid : UserId) (room : RoomId) (w : World) : World :=
  if (w.nativeRooms uid).any fun row => decide (row.roomId = room) then
    { w with nativeRooms := Function.update w.nativeRooms uid none }
  else w

end Soms.Somsai
