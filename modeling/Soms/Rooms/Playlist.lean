import Soms.Library.Run
import Soms.Rooms.Room

/-!
# Playlist rooms

The endpoints of `router/v2/room.py` that create, join, leave and end a playlist room.  A
join adds one to the participant count and a leave takes one away, whatever becomes of the
user's participation row.
-/

namespace Soms.Rooms.Playlist

open Txn RoomParticipatedUser

inductive RoomCategory where
  | normal | spotlight | featuredArtist | dailyChallenge | realtime
  deriving DecidableEq, Repr

inductive MatchType where
  | playlists | headToHead | teamVersus | matchmaking | rankedPlay
  deriving DecidableEq, Repr

inductive ErrorType where
  | accountRestricted
  | roomNotFound
  | youCannotEndRoom
  | youCannotEndRealtimeRoom
  | youCannotLetOthersJoinOrRemove
  | youCannotJoinOrLeaveRealtimeRoomByApi
  /-- The `HTTPException` of `create_playlist_room_from_api`. -/
  | rankedPlayRoom
  deriving DecidableEq, Repr

/-- The message key, if there is one, the status and the text. -/
def ErrorType.value : ErrorType → Option String × Nat × String
  | .accountRestricted =>
    ("account_restricted", 403, "Your account is restricted and cannot perform this action.")
  | .roomNotFound => ("room_not_found", 404, "Room not found")
  | .youCannotEndRoom => ("you_cannot_end_room", 403, "You cannot end this room")
  | .youCannotEndRealtimeRoom =>
    ("you_cannot_end_realtime_room_by_api", 403, "You cannot end a realtime room by API")
  | .youCannotLetOthersJoinOrRemove =>
    ("you_cannot_let_others_join_or_remove", 403,
      "You cannot let others join or remove from this room")
  | .youCannotJoinOrLeaveRealtimeRoomByApi =>
    ("you_cannot_join_or_leave_realtime_room_by_api", 403,
      "You cannot join or leave a realtime room by API")
  | .rankedPlayRoom => (none, 403, "Иди в обычный лазер")

/-- What a creation request says of the room. -/
structure APIUploadedRoom where
  category : RoomCategory := .normal
  type : MatchType
  /-- The minutes the room is open. -/
  duration : Option Int := none
  participantCount : Int := 0
  deriving DecidableEq, Repr

structure Room where
  hostId : UserId
  category : RoomCategory
  type : MatchType
  endsAt : Time
  participantCount : Int
  deriving DecidableEq, Repr

structure State where
  restricted : UserId → Bool
  rooms : Table Room
  participants : Table RoomParticipatedUser

namespace State

def setRoom (k : RoomId) (f : Room → Room) (s : State) : State :=
  { s with rooms := s.rooms.modify k f }

def setParticipant (i : Nat) (f : RoomParticipatedUser → RoomParticipatedUser) (s : State) :
    State :=
  { s with participants := s.participants.modify i f }

/-- The first participation row of the user in the room. -/
def participation (k : RoomId) (uid : UserId) (s : State) : Option (Nat × RoomParticipatedUser) :=
  s.participants.find fun p => p.roomId == k && p.userId == uid

/-- The participation rows of the room that have no end. -/
def occupancy (s : State) (k : RoomId) : Nat := s.participants.count (activeIn k)

/-- `_participate_room` -/
def participateRoom (now : Time) (k : RoomId) (uid : UserId) (s : State) : State :=
  let joined :=
    match s.participation k uid with
    | none =>
      { s with
        participants := s.participants.insert { roomId := k, userId := uid, joinedAt := now } }
    | some (i, _) => s.setParticipant i fun p => { p with leftAt := none, joinedAt := now }
  joined.setRoom k fun room => { room with participantCount := room.participantCount + 1 }

/-- The rows that `remove_user_from_room` writes. -/
def leaveRoom (now : Time) (k : RoomId) (uid : UserId) (s : State) : State :=
  let left :=
    match s.participation k uid with
    | none => s
    | some (i, _) => s.setParticipant i fun p => { p with leftAt := some now }
  left.setRoom k fun room =>
    if 0 < room.participantCount then { room with participantCount := room.participantCount - 1 }
    else room

end State

/-- The seconds of an uploaded duration. -/
def APIUploadedRoom.seconds (room : APIUploadedRoom) : Int := 60 * room.duration.getD 0

/-- The row that `create_playlist_room_from_api` adds. -/
def APIUploadedRoom.row (room : APIUploadedRoom) (hostId : UserId) (now : Time) : Room where
  hostId := hostId
  category := room.category
  type := room.type
  endsAt := now + room.seconds
  participantCount := room.participantCount

/-- The room is committed before its playlist is added, and the request may fail there: then it
is not `finished`. -/
def createRoom (now : Time) (uid : UserId) (room : APIUploadedRoom) (finished : Bool) :
    Txn State ErrorType Unit := do
  refuse (fun s => s.restricted uid = true) .accountRestricted
  refuse (fun _ => room.type = .rankedPlay) .rankedPlayRoom
  let k ← read fun s => s.rooms.next
  write fun s => { s with rooms := s.rooms.insert (room.row uid now) }
  when finished (write (State.participateRoom now k uid))

/-- `create_playlist_room`, by which the server opens a room of its own. -/
def createPlaylistRoom (now : Time) (hostId : UserId) (category : RoomCategory) (duration : Int)
    (s : State) : State :=
  { s with
    rooms := s.rooms.insert
      { hostId := hostId, category := category, type := .playlists, endsAt := now + 60 * duration
        participantCount := 0 } }

/-- What a join and a leave are checked for. -/
def ownPlaylistRoom (k : RoomId) (currentUser uid : UserId) : Txn State ErrorType Unit := do
  refuse (fun s => s.restricted currentUser = true) .accountRestricted
  refuse (fun _ => currentUser ≠ uid) .youCannotLetOthersJoinOrRemove
  let room ← require (fun s => s.rooms.row k) .roomNotFound
  refuse (fun _ => room.category = .realtime) .youCannotJoinOrLeaveRealtimeRoomByApi

def addUserToRoom (now : Time) (k : RoomId) (currentUser uid : UserId) :
    Txn State ErrorType Unit := do
  ownPlaylistRoom k currentUser uid
  write (State.participateRoom now k uid)

def removeUserFromRoom (now : Time) (k : RoomId) (currentUser uid : UserId) :
    Txn State ErrorType Unit := do
  ownPlaylistRoom k currentUser uid
  write (State.leaveRoom now k uid)

def deleteRoom (now : Time) (k : RoomId) (currentUser : UserId) : Txn State ErrorType Unit := do
  refuse (fun s => s.restricted currentUser = true) .accountRestricted
  let room ← require (fun s => s.rooms.row k) .roomNotFound
  refuse (fun _ => room.hostId ≠ currentUser) .youCannotEndRoom
  refuse (fun _ => room.category = .realtime) .youCannotEndRealtimeRoom
  write (State.setRoom k fun room => { room with endsAt := now })

inductive Event where
  | create (now : Time) (uid : UserId) (room : APIUploadedRoom) (finished : Bool)
  | openRoom (now : Time) (hostId : UserId) (category : RoomCategory) (duration : Int)
  | join (now : Time) (k : RoomId) (currentUser uid : UserId)
  | leave (now : Time) (k : RoomId) (currentUser uid : UserId)
  | delete (now : Time) (k : RoomId) (currentUser : UserId)
  | setRestricted (uid : UserId) (restricted : Bool)

def State.after (s : State) : Event → State
  | .create now uid room finished => (createRoom now uid room finished).commit s
  | .openRoom now hostId category duration => createPlaylistRoom now hostId category duration s
  | .join now k currentUser uid => (addUserToRoom now k currentUser uid).commit s
  | .leave now k currentUser uid => (removeUserFromRoom now k currentUser uid).commit s
  | .delete now k currentUser => (deleteRoom now k currentUser).commit s
  | .setRestricted uid restricted =>
    { s with restricted := Function.update s.restricted uid restricted }

def State.empty : State := ⟨fun _ => false, .empty, .empty⟩

inductive Step : State → Event → State → Prop
  | mk (s : State) (e : Event) : Step s e (s.after e)

/-- Each room's count is the number of its participations that have no end. -/
def Counted (s : State) : Prop :=
  ∀ k room, s.rooms.row k = some room → room.participantCount = s.occupancy k

/-- The user has a participation in the room that has no end. -/
def State.Inside (s : State) (k : RoomId) (uid : UserId) : Prop :=
  ∃ i p, s.participants.row i = some p ∧ p.activeOf k uid = true

theorem inside_iff_count {s : State} {k : RoomId} {uid : UserId} :
    s.participants.count (activeOf k uid) ≠ 0 ↔ s.Inside k uid := by
  rw [ne_eq, Table.count_eq_zero]
  simp [State.Inside]

instance (s : State) (k : RoomId) (uid : UserId) : Decidable (s.Inside k uid) :=
  decidable_of_iff _ inside_iff_count

/-- A user has one participation in a room at most, and rooms exist before they are joined. -/
structure Sound (s : State) : Prop where
  unique : ∀ i j p q, s.participants.row i = some p → s.participants.row j = some q →
    p.roomId = q.roomId → p.userId = q.userId → i = j
  known : ∀ i p, s.participants.row i = some p → p.roomId < s.rooms.next

/-- The checks of a join and a leave. -/
structure Allowed (s : State) (k : RoomId) (currentUser uid : UserId) : Prop where
  unrestricted : s.restricted currentUser = false
  own : currentUser = uid
  playlist : ∃ room, s.rooms.row k = some room ∧ room.category ≠ .realtime

/-- After the event the rooms are counted. -/
def StaysCounted (_ : List (Event × State)) (_ : Event) (t : State) : Prop := Counted t

/-- A room is created empty, only those outside join it, and only those inside leave it unless
there is nobody to count. -/
def InTurn (past : List (Event × State)) (e : Event) (_ : State) : Prop :=
  let s := endState State.empty past
  match e with
  | .create _ uid room _ =>
    s.restricted uid = false → room.type ≠ .rankedPlay → room.participantCount = 0
  | .join _ k currentUser uid => Allowed s k currentUser uid → ¬ s.Inside k uid
  | .leave _ k currentUser uid => Allowed s k currentUser uid → s.Inside k uid ∨ s.occupancy k = 0
  | _ => True

variable {s t : State} {now : Time} {k : RoomId} {currentUser uid : UserId}

/-! ## What the requests write -/

theorem createRoom_ok {room : APIUploadedRoom} {finished : Bool} {u : Unit} :
    createRoom now uid room finished s = (.ok u, t) ↔
      s.restricted uid = false ∧ room.type ≠ .rankedPlay ∧
        t = if finished = true then
          State.participateRoom now s.rooms.next uid
            { s with rooms := s.rooms.insert (room.row uid now) }
          else { s with rooms := s.rooms.insert (room.row uid now) } := by
  simp only [createRoom, bind_ok, refuse_ok, read_ok, write_ok, when_ok]
  constructor
  · rintro ⟨_, _, ⟨hrestricted, rfl⟩, _, _, ⟨htype, rfl⟩, _, _, ⟨rfl, rfl⟩, _, _, rfl, hjoin⟩
    refine ⟨by simpa using hrestricted, htype, ?_⟩
    rcases hjoin with ⟨rfl, rfl⟩ | ⟨rfl, rfl⟩ <;> rfl
  · rintro ⟨hrestricted, htype, rfl⟩
    refine ⟨(), s, ⟨by simp [hrestricted], rfl⟩, (), s, ⟨htype, rfl⟩, _, s, ⟨rfl, rfl⟩, (), _, rfl, ?_⟩
    cases finished
    · exact .inr ⟨rfl, rfl⟩
    · exact .inl ⟨rfl, rfl⟩

theorem ownPlaylistRoom_ok {u : Unit} :
    ownPlaylistRoom k currentUser uid s = (.ok u, t) ↔ Allowed s k currentUser uid ∧ s = t := by
  simp only [ownPlaylistRoom, bind_ok, refuse_ok, require_ok]
  constructor
  · rintro ⟨_, _, ⟨hrestricted, rfl⟩, _, _, ⟨hown, rfl⟩, room, _, ⟨hroom, rfl⟩, hcategory, rfl⟩
    exact ⟨⟨by simpa using hrestricted, by simpa using hown, room, hroom, hcategory⟩, rfl⟩
  · rintro ⟨⟨hrestricted, hown, room, hroom, hcategory⟩, rfl⟩
    exact ⟨(), s, ⟨by simp [hrestricted], rfl⟩, (), s, ⟨by simp [hown], rfl⟩, room, s, ⟨hroom, rfl⟩,
      hcategory, rfl⟩

/-- A request that is not allowed changes nothing. -/
theorem commit_ownPlaylistRoom (f : State → State) :
    (Allowed s k currentUser uid ∧
        (do ownPlaylistRoom k currentUser uid; write f).commit s = f s) ∨
      (¬ Allowed s k currentUser uid ∧
        (do ownPlaylistRoom k currentUser uid; write f).commit s = s) := by
  by_cases hallowed : Allowed s k currentUser uid
  · refine .inl ⟨hallowed, commit_eq (a := ()) (bind_ok.mpr ⟨(), s, ?_, rfl⟩)⟩
    exact ownPlaylistRoom_ok.mpr ⟨hallowed, rfl⟩
  · rcases commit_cases (do ownPlaylistRoom k currentUser uid; write f) s with ⟨u, hu⟩ | ⟨-, hsame⟩
    · obtain ⟨_, v, hown, -⟩ := bind_ok.mp hu
      exact absurd (ownPlaylistRoom_ok.mp hown).1 hallowed
    · exact .inr ⟨hallowed, hsame⟩

theorem after_join (s : State) (now : Time) (k : RoomId) (currentUser uid : UserId) :
    (Allowed s k currentUser uid ∧
        s.after (.join now k currentUser uid) = s.participateRoom now k uid) ∨
      (¬ Allowed s k currentUser uid ∧ s.after (.join now k currentUser uid) = s) :=
  commit_ownPlaylistRoom _

theorem after_leave (s : State) (now : Time) (k : RoomId) (currentUser uid : UserId) :
    (Allowed s k currentUser uid ∧
        s.after (.leave now k currentUser uid) = s.leaveRoom now k uid) ∨
      (¬ Allowed s k currentUser uid ∧ s.after (.leave now k currentUser uid) = s) :=
  commit_ownPlaylistRoom _

theorem deleteRoom_ok {u : Unit} (h : deleteRoom now k currentUser s = (.ok u, t)) :
    t = s.setRoom k fun room => { room with endsAt := now } := by
  simp only [deleteRoom, bind_ok, refuse_ok, require_ok, write_ok] at h
  obtain ⟨_, _, ⟨-, rfl⟩, _, _, ⟨-, rfl⟩, _, _, ⟨-, rfl⟩, _, _, ⟨-, rfl⟩, rfl⟩ := h
  rfl

theorem participation_some {i : Nat} {p : RoomParticipatedUser}
    (h : s.participation k uid = some (i, p)) :
    s.participants.row i = some p ∧ p.roomId = k ∧ p.userId = uid := by
  obtain ⟨hrow, hp⟩ := Table.find_some h
  simp only [Bool.and_eq_true, beq_iff_eq] at hp
  exact ⟨hrow, hp⟩

theorem participation_none (h : s.participation k uid = none) {i : Nat} {p : RoomParticipatedUser}
    (hrow : s.participants.row i = some p) : ¬ (p.roomId = k ∧ p.userId = uid) := by
  simpa using Table.find_none h hrow

theorem not_inside_of_none (h : s.participation k uid = none) : ¬ s.Inside k uid := by
  rintro ⟨i, p, hrow, hp⟩
  simp only [activeOf, activeIn, Bool.and_eq_true, decide_eq_true_eq] at hp
  exact participation_none h hrow ⟨hp.1.1, hp.2⟩

/-- The user is inside by the participation that is found. -/
theorem inside_iff (hs : Sound s) {i : Nat} {p : RoomParticipatedUser}
    (h : s.participation k uid = some (i, p)) : s.Inside k uid ↔ p.leftAt = none := by
  obtain ⟨hrow, rfl, rfl⟩ := participation_some h
  constructor
  · rintro ⟨j, q, hq, hactive⟩
    simp only [activeOf, activeIn, Bool.and_eq_true, decide_eq_true_eq,
      Option.isNone_iff_eq_none] at hactive
    obtain ⟨⟨hroom, hleft⟩, huser⟩ := hactive
    obtain rfl := hs.unique i j p q hrow hq hroom.symm huser.symm
    obtain rfl := Option.some.inj (hrow.symm.trans hq)
    exact hleft
  · intro hleft
    exact ⟨i, p, hrow, by simp [activeOf, activeIn, hleft]⟩

/-! ## The counts after a request -/

/-- The count of the room went up by `d`, and the participations by `n`. -/
structure Moved (k : RoomId) (d n : Int) (s t : State) : Prop where
  counts : ∀ j, (t.rooms.row j).map Room.participantCount =
    (s.rooms.row j).map fun room => room.participantCount + if j = k then d else 0
  occupied : ∀ j, (t.occupancy j : Int) = s.occupancy j + if j = k then n else 0

/-- The rooms stay counted if both went up by as much. -/
theorem Moved.counted_iff {d n : Int} (h : Moved k d n s t) (hs : Counted s) {room : Room}
    (hroom : s.rooms.row k = some room) : Counted t ↔ d = n := by
  have hother : ∀ j room', t.rooms.row j = some room' → ∃ old, s.rooms.row j = some old ∧
      room'.participantCount = old.participantCount + if j = k then d else 0 := by
    intro j room' hroom'
    have hcounts := h.counts j
    rw [hroom', Option.map_some] at hcounts
    obtain ⟨old, hold, hcount⟩ := Option.map_eq_some_iff.mp hcounts.symm
    exact ⟨old, hold, hcount.symm⟩
  constructor
  · intro ht
    have hcounts := h.counts k
    rw [hroom, Option.map_some] at hcounts
    obtain ⟨new, hnew, hcount⟩ := Option.map_eq_some_iff.mp hcounts
    have hafter := ht k new hnew
    have hbefore := hs k room hroom
    have hmoved := h.occupied k
    simp only [if_true] at hcount hmoved
    omega
  · rintro rfl j room' hroom'
    obtain ⟨old, hold, hcount⟩ := hother j room' hroom'
    have hbefore := hs j old hold
    have hmoved := h.occupied j
    omega

theorem Moved.symm {d n : Int} (h : Moved k d n s t) : Moved k (-d) (-n) t s where
  counts j := by
    have hcounts := h.counts j
    cases hs : s.rooms.row j with
    | none =>
      rw [hs] at hcounts
      simp [Option.map_eq_none_iff.mp hcounts]
    | some old =>
      rw [hs, Option.map_some] at hcounts
      obtain ⟨new, hnew, hcount⟩ := Option.map_eq_some_iff.mp hcounts
      rw [hnew, Option.map_some, Option.map_some, hcount]
      refine congrArg some ?_
      split <;> omega
  occupied j := by
    rw [h.occupied j]
    split <;> omega

theorem Moved.counted_of_eq {d : Int} (h : Moved k d d s t) {room : Room}
    (hroom : s.rooms.row k = some room) : Counted t ↔ Counted s := by
  constructor
  · intro ht
    have hcounts := h.counts k
    rw [hroom, Option.map_some] at hcounts
    obtain ⟨new, hnew, -⟩ := Option.map_eq_some_iff.mp hcounts
    exact (h.symm.counted_iff ht hnew).mpr rfl
  · intro hs
    exact (h.counted_iff hs hroom).mpr rfl

/-- The participations of the rooms after one of them is changed. -/
theorem occupancy_setParticipant {i : Nat} {p : RoomParticipatedUser}
    {f : RoomParticipatedUser → RoomParticipatedUser} (hrow : s.participants.row i = some p)
    (hf : (f p).roomId = p.roomId) (j : RoomId) :
    ((s.setParticipant i f).occupancy j : Int) = s.occupancy j +
      if j = p.roomId then
        (if (f p).leftAt = none then 1 else 0) - (if p.leftAt = none then 1 else 0)
      else 0 := by
  have hcount := Table.count_modify s.participants f (activeIn j) hrow
  have hactive : ∀ q : RoomParticipatedUser, q.roomId = p.roomId →
      (activeIn j q = true ↔ j = p.roomId ∧ q.leftAt = none) := by
    intro q hq
    rw [activeIn, hq, eq_comm (a := j)]
    simp
  rw [State.occupancy, State.occupancy, State.setParticipant]
  simp only [hactive p rfl, hactive (f p) hf] at hcount
  by_cases hj : j = p.roomId
  · subst hj
    simp only [true_and] at hcount
    rw [if_pos rfl]
    by_cases hbefore : p.leftAt = none <;> by_cases hafter : (f p).leftAt = none <;>
      simp only [hbefore, hafter, if_true, if_false] at hcount ⊢ <;> omega
  · simp only [hj, false_and, if_false, Nat.add_zero] at hcount ⊢
    omega

theorem moved_participateRoom (hs : Sound s) (now : Time) (k : RoomId) (uid : UserId) :
    Moved k 1 (if s.Inside k uid then 0 else 1) s (s.participateRoom now k uid) where
  counts j := by
    have hrooms : (s.participateRoom now k uid).rooms = s.rooms.modify k fun room =>
        { room with participantCount := room.participantCount + 1 } := by
      unfold State.participateRoom
      split <;> rfl
    rw [hrooms, Table.row_modify]
    split <;> simp [Function.comp_def]
  occupied j := by
    unfold State.participateRoom
    cases hfound : s.participation k uid with
    | none =>
      rw [if_neg (not_inside_of_none hfound)]
      have hcount := Table.count_insert s.participants
        { roomId := k, userId := uid, joinedAt := now } (activeIn j)
      show ((Table.insert _ _).count _ : Int) = _
      rw [hcount]
      have hactive : activeIn j { roomId := k, userId := uid, joinedAt := now } = true ↔ j = k := by
        simp [activeIn, eq_comm]
      simp only [hactive, State.occupancy]
      split <;> rfl
    | some found =>
      obtain ⟨i, p⟩ := found
      obtain ⟨hrow, rfl, -⟩ := participation_some hfound
      have hinside := inside_iff hs hfound
      refine (occupancy_setParticipant hrow rfl j).trans ?_
      by_cases hleft : p.leftAt = none
      · rw [if_pos (hinside.mpr hleft)]
        simp [hleft]
      · rw [if_neg (hinside.not.mpr hleft)]
        simp [hleft]

theorem moved_leaveRoom (hs : Sound s) (now : Time) (k : RoomId) (uid : UserId)
    {room : Room} (hroom : s.rooms.row k = some room) :
    Moved k (if 0 < room.participantCount then -1 else 0) (if s.Inside k uid then -1 else 0) s
      (s.leaveRoom now k uid) where
  counts j := by
    have hrooms : (s.leaveRoom now k uid).rooms = s.rooms.modify k fun room =>
        if 0 < room.participantCount then
          { room with participantCount := room.participantCount - 1 }
        else room := by
      unfold State.leaveRoom
      split <;> rfl
    rw [hrooms, Table.row_modify]
    split
    · next hj =>
      subst hj
      rw [hroom]
      simp only [Option.map_some]
      split
      · rfl
      · rw [add_zero]
    · simp
  occupied j := by
    unfold State.leaveRoom
    cases hfound : s.participation k uid with
    | none =>
      rw [if_neg (not_inside_of_none hfound)]
      simp [State.setRoom, State.occupancy]
    | some found =>
      obtain ⟨i, p⟩ := found
      obtain ⟨hrow, rfl, -⟩ := participation_some hfound
      have hinside := inside_iff hs hfound
      refine (occupancy_setParticipant hrow rfl j).trans ?_
      by_cases hleft : p.leftAt = none
      · rw [if_pos (hinside.mpr hleft)]
        simp [hleft]
      · rw [if_neg (hinside.not.mpr hleft)]
        simp [hleft]

/-! ## A new room -/

theorem unoccupied (hs : Sound s) : s.occupancy s.rooms.next = 0 := by
  refine Table.count_eq_zero.mpr fun i p hrow => ?_
  have hne : p.roomId ≠ s.rooms.next := Nat.ne_of_lt (hs.known i p hrow)
  simp [activeIn, hne]

theorem counted_insert_iff (hs : Sound s) (hcounted : Counted s) {room : Room} :
    Counted { s with rooms := s.rooms.insert room } ↔ room.participantCount = 0 := by
  constructor
  · intro h
    have hnew := h s.rooms.next room (by simp)
    have hnone : State.occupancy { s with rooms := s.rooms.insert room } s.rooms.next = 0 :=
      unoccupied hs
    omega
  · intro hzero k old hold
    rw [Table.row_insert] at hold
    split at hold
    · next hk =>
      subst hk
      obtain rfl := Option.some.inj hold
      have hnone : State.occupancy { s with rooms := s.rooms.insert room } s.rooms.next = 0 :=
        unoccupied hs
      omega
    · exact hcounted k old hold

/-! ## The participations of the users -/

theorem Sound.of_rows (h : Sound s) (hnext : s.rooms.next ≤ t.rooms.next)
    (hrows : ∀ i p, t.participants.row i = some p →
      ∃ q, s.participants.row i = some q ∧ p.roomId = q.roomId ∧ p.userId = q.userId) :
    Sound t where
  unique i j p q hp hq hroom huser := by
    obtain ⟨p', hp', hproom, hpuser⟩ := hrows i p hp
    obtain ⟨q', hq', hqroom, hquser⟩ := hrows j q hq
    exact h.unique i j p' q' hp' hq' (by rw [← hproom, hroom, hqroom])
      (by rw [← hpuser, huser, hquser])
  known i p hp := by
    obtain ⟨q, hq, hroom, -⟩ := hrows i p hp
    rw [hroom]
    exact Nat.lt_of_lt_of_le (h.known i q hq) hnext

theorem Sound.setParticipant (h : Sound s) (i : Nat)
    {f : RoomParticipatedUser → RoomParticipatedUser}
    (hf : ∀ p, (f p).roomId = p.roomId ∧ (f p).userId = p.userId) :
    Sound (s.setParticipant i f) := by
  refine h.of_rows (Nat.le_refl _) fun j p hp => ?_
  rw [State.setParticipant, Table.row_modify] at hp
  split at hp
  · obtain ⟨q, hq, rfl⟩ := Option.map_eq_some_iff.mp hp
    exact ⟨q, hq, hf q⟩
  · exact ⟨p, hp, rfl, rfl⟩

theorem Sound.setRoom (h : Sound s) (k : RoomId) (f : Room → Room) : Sound (s.setRoom k f) :=
  h.of_rows (Nat.le_refl _) fun _ p hp => ⟨p, hp, rfl, rfl⟩

theorem Sound.insertRoom (h : Sound s) (room : Room) :
    Sound { s with rooms := s.rooms.insert room } :=
  h.of_rows (Nat.le_succ _) fun _ p hp => ⟨p, hp, rfl, rfl⟩

theorem Sound.participateRoom (h : Sound s) (hk : k < s.rooms.next) :
    Sound (s.participateRoom now k uid) := by
  unfold State.participateRoom
  cases hfound : s.participation k uid with
  | some found =>
    refine Sound.setRoom ?_ _ _
    exact h.setParticipant found.1 fun _ => ⟨rfl, rfl⟩
  | none =>
    refine Sound.setRoom ⟨fun i j p q hp hq hroom huser => ?_, fun i p hp => ?_⟩ _ _
    · simp only [Table.row_insert] at hp hq
      split at hp <;> split at hq
      · next hi hj => exact hi.trans hj.symm
      · obtain rfl := Option.some.inj hp
        exact absurd ⟨hroom.symm, huser.symm⟩ (participation_none hfound hq)
      · obtain rfl := Option.some.inj hq
        exact absurd ⟨hroom, huser⟩ (participation_none hfound hp)
      · exact h.unique i j p q hp hq hroom huser
    · simp only [Table.row_insert] at hp
      split at hp
      · obtain rfl := Option.some.inj hp
        exact hk
      · exact h.known i p hp

theorem Sound.leaveRoom (h : Sound s) : Sound (s.leaveRoom now k uid) := by
  unfold State.leaveRoom
  cases s.participation k uid with
  | some found =>
    refine Sound.setRoom ?_ _ _
    exact h.setParticipant found.1 fun _ => ⟨rfl, rfl⟩
  | none => exact h.setRoom _ _

/-- Every event keeps the participations of the users apart. -/
theorem Sound.after (h : Sound s) (e : Event) : Sound (s.after e) := by
  cases e with
  | create now uid room finished =>
    show Sound ((createRoom now uid room finished).commit s)
    rcases commit_cases (createRoom now uid room finished) s with ⟨u, hu⟩ | ⟨-, hsame⟩
    · obtain ⟨-, -, hafter⟩ := createRoom_ok.mp hu
      rw [hafter]
      split
      · exact (h.insertRoom _).participateRoom (Nat.lt_succ_self _)
      · exact h.insertRoom _
    · rw [hsame]
      exact h
  | openRoom now hostId category duration => exact h.insertRoom _
  | join now k currentUser uid =>
    rcases after_join s now k currentUser uid with ⟨hallowed, hafter⟩ | ⟨-, hsame⟩
    · obtain ⟨room, hroom, -⟩ := hallowed.playlist
      rw [hafter]
      exact h.participateRoom (Table.lt_next hroom)
    · rw [hsame]
      exact h
  | leave now k currentUser uid =>
    rcases after_leave s now k currentUser uid with ⟨-, hafter⟩ | ⟨-, hsame⟩
    · rw [hafter]
      exact h.leaveRoom
    · rw [hsame]
      exact h
  | delete now k currentUser =>
    show Sound ((deleteRoom now k currentUser).commit s)
    rcases commit_cases (deleteRoom now k currentUser) s with ⟨u, hu⟩ | ⟨-, hsame⟩
    · rw [deleteRoom_ok hu]
      exact h.setRoom _ _
    · rw [hsame]
      exact h
  | setRestricted uid restricted => exact h.of_rows (Nat.le_refl _) fun _ p hp => ⟨p, hp, rfl, rfl⟩

/-! ## Runs -/

theorem counted_create (hs : Sound s) (hcounted : Counted s) (room : APIUploadedRoom)
    (finished : Bool) :
    Counted (s.after (.create now uid room finished)) ↔
      (s.restricted uid = false → room.type ≠ .rankedPlay → room.participantCount = 0) := by
  show Counted ((createRoom now uid room finished).commit s) ↔ _
  rcases commit_cases (createRoom now uid room finished) s with ⟨u, hu⟩ | ⟨⟨err, herr⟩, hsame⟩
  · obtain ⟨hrestricted, htype, hafter⟩ := createRoom_ok.mp hu
    have hinsert : Counted { s with rooms := s.rooms.insert (room.row uid now) } ↔
        room.participantCount = 0 := counted_insert_iff hs hcounted
    simp only [hrestricted, htype, ne_eq, not_false_eq_true, forall_const]
    rw [hafter, ← hinsert]
    split
    · have hout : ¬ State.Inside { s with rooms := s.rooms.insert (room.row uid now) }
          s.rooms.next uid := by
        rintro ⟨i, p, hrow, hp⟩
        simp only [activeOf, activeIn, Bool.and_eq_true, decide_eq_true_eq] at hp
        exact Nat.ne_of_lt (hs.known i p hrow) hp.1.1
      have hmoved := moved_participateRoom (hs.insertRoom (room.row uid now)) now s.rooms.next uid
      rw [if_neg hout] at hmoved
      have hrow : (s.rooms.insert (room.row uid now)).row s.rooms.next = some (room.row uid now) :=
        by simp
      exact hmoved.counted_of_eq hrow
    · rfl
  · rw [hsame]
    refine iff_of_true hcounted fun hrestricted htype => ?_
    have hok : createRoom now uid room finished s = (.ok (), _) :=
      createRoom_ok.mpr ⟨hrestricted, htype, rfl⟩
    rw [hok] at herr
    simp at herr

theorem counted_join (hs : Sound s) (hcounted : Counted s) :
    Counted (s.after (.join now k currentUser uid)) ↔
      (Allowed s k currentUser uid → ¬ s.Inside k uid) := by
  rcases after_join s now k currentUser uid with ⟨hallowed, hafter⟩ | ⟨hnot, hsame⟩
  · obtain ⟨room, hroom, -⟩ := hallowed.playlist
    rw [hafter, (moved_participateRoom hs now k uid).counted_iff hcounted hroom]
    by_cases hinside : s.Inside k uid <;> simp [hinside, hallowed]
  · rw [hsame]
    exact iff_of_true hcounted fun hallowed => absurd hallowed hnot

theorem counted_leave (hs : Sound s) (hcounted : Counted s) :
    Counted (s.after (.leave now k currentUser uid)) ↔
      (Allowed s k currentUser uid → s.Inside k uid ∨ s.occupancy k = 0) := by
  rcases after_leave s now k currentUser uid with ⟨hallowed, hafter⟩ | ⟨hnot, hsame⟩
  · obtain ⟨room, hroom, -⟩ := hallowed.playlist
    have hcount : room.participantCount = s.occupancy k := hcounted k room hroom
    rw [hafter, (moved_leaveRoom hs now k uid hroom).counted_iff hcounted hroom]
    by_cases hinside : s.Inside k uid
    · have hsome : s.occupancy k ≠ 0 := by
        obtain ⟨i, p, hrow, hp⟩ := hinside
        intro hzero
        have hactive := Table.count_eq_zero.mp hzero i p hrow
        rw [activeOf, hactive] at hp
        simp at hp
      rw [if_pos hinside, if_pos (by omega)]
      simp [hinside]
    · rw [if_neg hinside]
      simp only [hinside, hallowed, false_or, forall_const]
      split <;> omega
  · rw [hsame]
    exact iff_of_true hcounted fun hallowed => absurd hallowed hnot

theorem counted_after (hs : Sound s) (hcounted : Counted s) {past : List (Event × State)}
    (hend : endState State.empty past = s) (e : Event) :
    Counted (s.after e) ↔ InTurn past e (s.after e) := by
  unfold InTurn
  rw [hend]
  cases e with
  | create now uid room finished => exact counted_create hs hcounted room finished
  | openRoom now hostId category duration =>
    exact iff_of_true ((counted_insert_iff hs hcounted).mpr rfl) trivial
  | join now k currentUser uid => exact counted_join hs hcounted
  | leave now k currentUser uid => exact counted_leave hs hcounted
  | delete now k currentUser =>
    refine iff_of_true ?_ trivial
    show Counted ((deleteRoom now k currentUser).commit s)
    rcases commit_cases (deleteRoom now k currentUser) s with ⟨u, hu⟩ | ⟨-, hsame⟩
    · rw [deleteRoom_ok hu]
      intro j room hroom
      rw [State.setRoom, Table.row_modify] at hroom
      split at hroom
      · obtain ⟨old, hold, rfl⟩ := Option.map_eq_some_iff.mp hroom
        exact hcounted j old hold
      · exact hcounted j room hroom
    · rw [hsame]
      exact hcounted
  | setRestricted uid restricted => exact iff_of_true hcounted trivial

/-- The rooms stay counted as long as each is created empty, joined from outside and left from
inside. -/
theorem participant_count {h : List (Event × State)}
    (hrun : Trace Step (fun _ _ => True) State.empty h s) :
    Every StaysCounted h ↔ Every InTurn h := by
  have hempty : Counted State.empty := by simp [Counted, State.empty]
  have hsound : Sound State.empty := ⟨by simp [State.empty], by simp [State.empty]⟩
  refine Trace.every_iff (I := fun _ s => Sound s ∧ Counted s) ⟨hsound, hempty⟩
    (fun past u e v hI hend hstep => ?_) hrun
  cases hstep
  have hafter := counted_after hI.1 hI.2 hend e
  exact ⟨hafter, fun hturn => ⟨hI.1.after e, hafter.mpr hturn⟩⟩

/-- The history of some events, the newest first. -/
def roomRun (es : List Event) : List (Event × State) := historyOf State.after State.empty es

theorem trace_roomRun (es : List Event) : Trace Step (fun _ _ => True) State.empty
    (roomRun es) (endState State.empty (roomRun es)) :=
  trace_historyOf State.empty es fun e _ s => .mk s e

/-- User 2 joins the room of user 1, leaves it and joins again. -/
def joinedAgain : List Event :=
  [.join 30 1 2 2, .leave 20 1 2 2, .join 10 1 2 2, .create 0 1 { type := .playlists } true]

theorem participant_count_joinedAgain :
    Every StaysCounted (roomRun joinedAgain) ∧
      ((endState State.empty (roomRun joinedAgain)).rooms.row 1).map Room.participantCount =
        some 2 := by
  refine ⟨(participant_count (trace_roomRun joinedAgain)).mpr ?_, by decide +kernel⟩
  refine ⟨⟨⟨⟨trivial, fun _ _ => rfl⟩, fun _ => ?_⟩, fun _ => ?_⟩, fun _ => ?_⟩
  · decide +kernel
  · exact .inl (by decide +kernel)
  · decide +kernel

/-- User 2 leaves a room they never joined. -/
def strangerLeaves : List Event := [.leave 10 1 2 2, .create 0 1 { type := .playlists } true]

theorem stranger_leaves : ∃ h s,
    Trace Step (fun _ _ => True) State.empty h s ∧ ¬ Every StaysCounted h := by
  refine ⟨_, _, trace_roomRun strangerLeaves, fun hevery => ?_⟩
  have hcounted := hevery.2 1 ⟨1, .normal, .playlists, 0, 0⟩ (by decide +kernel)
  revert hcounted
  decide +kernel

end Soms.Rooms.Playlist
