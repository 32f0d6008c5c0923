import Mathlib.Data.List.Sort
import Soms.Library.Table
import Soms.Library.Txn

/-!
# Multiplayer rooms

The endpoints of `router/lio.py` by which the spectator server tells who is in a
room: the room row, the participation rows, and the two calls on them.
-/

namespace Soms.Rooms

open Txn

abbrev UserId := Nat
abbrev RoomId := Nat
abbrev Time := Int

inductive ErrorType where
  | roomNotFound | roomEndedCannotAcceptNew | roomPasswordRequired | roomInvalidPassword
  deriving DecidableEq, Repr

/-- The message key, the status and the text. -/
def ErrorType.value : ErrorType → String × Nat × String
  | .roomNotFound => ("room_not_found", 404, "Room not found")
  | .roomEndedCannotAcceptNew =>
    ("room_ended_cannot_accept_new", 410, "Room has ended and cannot accept new participants")
  | .roomPasswordRequired => ("room_password_required", 403, "Password required")
  | .roomInvalidPassword => ("room_invalid_password", 403, "Invalid password")

inductive RoomStatus where
  | idle | playing
  deriving DecidableEq, Repr

structure Room where
  hostId : UserId
  status : RoomStatus := .idle
  endsAt : Option Time := none
  participantCount : Nat := 1
  tournamentMode : Bool := false
  password : Option String := none
  deriving DecidableEq, Repr

structure RoomParticipatedUser where
  roomId : RoomId
  userId : UserId
  joinedAt : Time
  leftAt : Option Time := none
  deriving DecidableEq, Repr

structure Db where
  rooms : Table Room
  participants : Table RoomParticipatedUser

def Room.ended (room : Room) (now : Time) : Bool := room.endsAt.any fun t => decide (t ≤ now)

namespace RoomParticipatedUser

/-- An active participation in the room. -/
def activeIn (k : RoomId) (p : RoomParticipatedUser) : Bool :=
  decide (p.roomId = k) && p.leftAt.isNone

/-- An active participation of the user in the room. -/
def activeOf (k : RoomId) (uid : UserId) (p : RoomParticipatedUser) : Bool :=
  p.activeIn k && decide (p.userId = uid)

end RoomParticipatedUser

open RoomParticipatedUser

namespace Db

def setRoom (k : RoomId) (f : Room → Room) (db : Db) : Db :=
  { db with rooms := db.rooms.modify k f }

def setParticipant (i : Nat) (f : RoomParticipatedUser → RoomParticipatedUser) (db : Db) : Db :=
  { db with participants := db.participants.modify i f }

/-- The active participations in the room, in the order of their ids. -/
def active (db : Db) (k : RoomId) : List RoomParticipatedUser :=
  (db.participants.toList.filter fun x => x.2.activeIn k).map Prod.snd

/-- `_add_or_update_participant` -/
def addOrUpdateParticipant (now : Time) (k : RoomId) (uid : UserId) (db : Db) : Db :=
  match (db.participants.toList.filter fun x => x.2.activeOf k uid).map Prod.fst with
  | first :: extra =>
    -- duplicates are marked as left
    let db := extra.foldl (fun db i => db.setParticipant i fun p => { p with leftAt := some now }) db
    db.setParticipant first fun p => { p with joinedAt := now }
  | [] =>
    { db with
      participants := db.participants.insert { roomId := k, userId := uid, joinedAt := now } }

/-- `_update_room_participant_count` -/
def updateRoomParticipantCount (k : RoomId) (db : Db) : Db :=
  db.setRoom k fun room => { room with participantCount := (db.active k).length }

/-- `_end_room_if_empty` -/
def endRoomIfEmpty (now : Time) (k : RoomId) (db : Db) : Bool × Db :=
  let counted := db.updateRoomParticipantCount k
  if (db.active k).length = 0 then
    if (counted.rooms.row k).any (·.tournamentMode) then (false, counted)
    else
      (true, counted.setRoom k fun room =>
        { room with endsAt := some now, status := .idle, participantCount := 0 })
  else (false, counted)

/-- `_transfer_ownership_or_end_room` -/
def transferOwnershipOrEndRoom (now : Time) (k : RoomId) (leaving : UserId) (db : Db) : Bool × Db :=
  let remaining := ((db.active k).filter fun p => p.userId ≠ leaving).insertionSort
    fun p q => p.joinedAt ≤ q.joinedAt
  match remaining with
  | newOwner :: _ => (false, db.setRoom k fun room => { room with hostId := newOwner.userId })
  | [] => db.endRoomIfEmpty now k

/-- Mark the user as left. -/
def markLeft (now : Time) (k : RoomId) (uid : UserId) (db : Db) : Db :=
  { db with participants := db.participants.map fun p =>
      if p.activeOf k uid then { p with leftAt := some now } else p }

end Db

/-- Python's truth of a password. -/
def given (password : Option String) : Bool := password.any (· ≠ "")

/-- `_verify_room_password` -/
def verifyRoomPassword (k : RoomId) (provided : Option String) : Txn Db ErrorType Unit := do
  let room ← require (fun db => db.rooms.row k) .roomNotFound
  refuse (fun _ => given room.password ∧ ¬ given provided) .roomPasswordRequired
  refuse (fun _ => given room.password ∧ given provided ∧ provided ≠ room.password)
    .roomInvalidPassword

/-- `add_user_to_room` -/
def addUserToRoom (now : Time) (k : RoomId) (uid : UserId) (password : Option String) :
    Txn Db ErrorType Unit := do
  let room ← require (fun db => db.rooms.row k) .roomNotFound
  refuse (fun _ => room.ended now) .roomEndedCannotAcceptNew
  verifyRoomPassword k password
  write (Db.addOrUpdateParticipant now k uid)
  write (Db.updateRoomParticipantCount k)

/-- Replace the store and return a value. -/
def settle {α : Type} (f : Db → α × Db) : Txn Db ErrorType α := do
  let result ← read f
  write fun _ => result.2
  pure result.1

/-- `remove_user_from_room`: whether the room has ended. -/
def removeUserFromRoom (now : Time) (k : RoomId) (uid : UserId) : Txn Db ErrorType Bool := do
  let room ← require (fun db => db.rooms.row k) .roomNotFound
  if room.ended now then pure true
  else do
    let participant ← read fun db => db.participants.find (activeOf k uid)
    match participant with
    | none => settle (Db.endRoomIfEmpty now k)
    | some _ => do
      write (Db.markLeft now k uid)
      if uid = room.hostId then settle (Db.transferOwnershipOrEndRoom now k uid)
      else settle (Db.endRoomIfEmpty now k)

/-! ## The system -/

inductive Event where
  /-- A room is made, by `create_multiplayer_room` or elsewhere. -/
  | created (room : Room)
  /-- `PUT /multiplayer/rooms/{room_id}/users/{user_id}` -/
  | join (now : Time) (k : RoomId) (uid : UserId) (password : Option String)
  /-- `DELETE /multiplayer/rooms/{room_id}/users/{user_id}` -/
  | leave (now : Time) (k : RoomId) (uid : UserId)
  deriving DecidableEq, Repr

/-- The store after an event. -/
def Db.after (db : Db) : Event → Db
  | .created room => { db with rooms := db.rooms.insert room }
  | .join now k uid password => commit (addUserToRoom now k uid password) db
  | .leave now k uid => commit (removeUserFromRoom now k uid) db

/-- No rooms. -/
def Db.empty : Db := ⟨.empty, .empty⟩

inductive Step : Db → Event → Db → Prop
  | mk (db : Db) (e : Event) : Step db e (db.after e)

end Soms.Rooms
