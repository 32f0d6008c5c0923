import Soms.Library.Run
import Soms.Rooms.Room

/-!
# Room occupancy

Every branch of the two calls counts the active participations anew, but one: a
host who leaves others behind passes the room on and leaves the count as it was.
-/

namespace Soms.Rooms

open Txn RoomParticipatedUser

namespace Db

/-- How many active participations the room has. -/
def occupancy (db : Db) (k : RoomId) : Nat := db.participants.count (activeIn k)

/-- How many active participations the user has in the room. -/
def presence (db : Db) (k : RoomId) (uid : UserId) : Nat := db.participants.count (activeOf k uid)

/-- The room is there and has not ended. -/
def Open (db : Db) (now : Time) (k : RoomId) : Prop :=
  ∃ room, db.rooms.row k = some room ∧ room.ended now = false

end Db

/-- What a call on the room has to leave: the count is right, nobody is in twice, and a
room with members, unless of a tournament, has ended exactly if the last one left. -/
structure Occupied (s t : Db) (now : Time) (k : RoomId) (uid : UserId) (leaves : Prop) : Prop where
  count : ∀ room, t.rooms.row k = some room → room.participantCount = t.occupancy k
  once : ∀ other, t.presence k other ≤ 1
  ended : ∀ room, t.rooms.row k = some room → room.tournamentMode = false → 0 < s.occupancy k →
    (room.ended now = true ↔ leaves ∧ s.presence k uid = 1 ∧ s.occupancy k = 1)

/-- The law of one event: a call that succeeds on a room that has not ended. -/
def OccupancyLaw (s : Db) : Event → Prop
  | .created _ => True
  | .join now k uid password =>
    (∃ t, addUserToRoom now k uid password s = (.ok (), t)) →
      Occupied s (s.after (.join now k uid password)) now k uid False
  | .leave now k uid => s.Open now k → Occupied s (s.after (.leave now k uid)) now k uid True

/-- The event is not that the host of a room leaves others behind. -/
def HostStays (s : Db) : Event → Prop
  | .leave now k uid => ∀ room, s.rooms.row k = some room → room.ended now = false →
      uid = room.hostId → s.presence k uid = 0 ∨ s.occupancy k ≤ 1
  | _ => True

/-- What holds between the calls: participations are in rooms that exist, nobody is in
a room twice, and the count of a room with members is right. -/
structure Counted (s : Db) : Prop where
  known : ∀ k, s.rooms.row k = none → s.occupancy k = 0
  once : ∀ k uid, s.presence k uid ≤ 1
  count : ∀ k room, s.rooms.row k = some room → 0 < s.occupancy k →
    room.participantCount = s.occupancy k

/-! ## The parts of the calls -/

/-- The room row after a call that counted. -/
def Room.counted (now : Time) (n : Nat) (room : Room) : Room :=
  if n = 0 ∧ room.tournamentMode = false then
    { room with endsAt := some now, status := .idle, participantCount := 0 }
  else { room with participantCount := n }

section Parts

variable {db s : Db} {now : Time} {k : RoomId} {uid : UserId}

theorem length_active (db : Db) (k : RoomId) : (db.active k).length = db.occupancy k := by
  rw [Db.active, List.length_map]
  exact Table.length_filter_toList db.participants (activeIn k)

theorem presence_le (db : Db) (k : RoomId) (uid : UserId) : db.presence k uid ≤ db.occupancy k :=
  Table.count_le _ fun p hp => by
    rw [activeOf, Bool.and_eq_true] at hp
    exact hp.1

@[simp] theorem occupancy_setRoom (db : Db) (j k : RoomId) (f : Room → Room) :
    (db.setRoom j f).occupancy k = db.occupancy k := rfl

@[simp] theorem presence_setRoom (db : Db) (j k : RoomId) (uid : UserId) (f : Room → Room) :
    (db.setRoom j f).presence k uid = db.presence k uid := rfl

/-- A room without members ends, unless of a tournament; another one is counted. -/
theorem endRoomIfEmpty_eq (now : Time) (k : RoomId) (db : Db) :
    (db.endRoomIfEmpty now k).2 = db.setRoom k (Room.counted now (db.occupancy k)) := by
  unfold Db.endRoomIfEmpty Db.updateRoomParticipantCount Db.setRoom
  simp only [length_active, Table.modify_modify, Table.row_modify, if_true]
  by_cases hempty : db.occupancy k = 0
  · rw [if_pos hempty]
    by_cases hmode : ((db.rooms.row k).map fun room =>
        { room with participantCount := db.occupancy k }).any (·.tournamentMode) = true
    · rw [if_pos hmode]
      refine congrArg (Db.mk · db.participants) (Table.modify_congr fun room hroom => ?_)
      rw [hroom] at hmode
      rw [Room.counted, if_neg fun h => by simp_all]
    · rw [if_neg hmode]
      refine congrArg (Db.mk · db.participants) (Table.modify_congr fun room hroom => ?_)
      rw [hroom] at hmode
      have hnot : room.tournamentMode = false := by simpa using hmode
      rw [Room.counted, if_pos ⟨hempty, hnot⟩]
      rfl
  · rw [if_neg hempty]
    refine congrArg (Db.mk · db.participants) (Table.modify_congr fun room _ => ?_)
    rw [Room.counted, if_neg fun h => hempty h.1]

/-- The participations after the user left. -/
theorem markLeft_counts (db : Db) (now : Time) (k j : RoomId) (uid other : UserId) :
    (db.markLeft now k uid).presence j other =
        (if j = k ∧ other = uid then 0 else db.presence j other) ∧
      (db.markLeft now k uid).occupancy j +
        (if j = k then db.presence k uid else 0) = db.occupancy j := by
  have hpresence : ∀ p : RoomParticipatedUser,
      activeOf j other (if p.activeOf k uid then { p with leftAt := some now } else p) =
        (activeOf j other p && !activeOf k uid p) := by
    intro p
    by_cases hp : p.activeOf k uid = true
    · rw [if_pos hp, hp]
      simp [activeOf, activeIn]
    · simp [hp]
  have hoccupancy : ∀ p : RoomParticipatedUser,
      activeIn j (if p.activeOf k uid then { p with leftAt := some now } else p) =
        (activeIn j p && !activeOf k uid p) := by
    intro p
    by_cases hp : p.activeOf k uid = true
    · rw [if_pos hp, hp]
      simp [activeIn]
    · simp [hp]
  constructor
  · unfold Db.presence Db.markLeft
    rw [Table.count_map]
    simp only [hpresence]
    split
    · next h =>
      obtain ⟨rfl, rfl⟩ := h
      refine Table.count_eq_zero.mpr fun i p _ => ?_
      cases activeOf j other p <;> rfl
    · next h =>
      refine congrArg db.participants.count (funext fun p => ?_)
      cases hp : activeOf j other p
      · rfl
      · rw [Bool.true_and, Bool.not_eq_true', Bool.eq_false_iff]
        intro hq
        simp only [activeOf, activeIn, Bool.and_eq_true, decide_eq_true_eq] at hp hq
        exact h ⟨hp.1.1.symm.trans hq.1.1, hp.2.symm.trans hq.2⟩
  · unfold Db.occupancy Db.presence Db.markLeft
    rw [Table.count_map]
    simp only [hoccupancy]
    rw [db.participants.count_split (activeIn j) (activeOf k uid), Nat.add_comm]
    refine congrArg (· + _) ?_
    split
    · next h =>
      subst h
      refine congrArg db.participants.count (funext fun p => ?_)
      rw [activeOf]
      cases activeIn j p <;> rfl
    · next h =>
      refine (Table.count_eq_zero.mpr fun i p _ => ?_).symm
      rw [Bool.and_eq_false_iff]
      by_cases hj : p.roomId = j
      · exact .inr (by simp [activeOf, activeIn, hj, h])
      · exact .inl (by simp [activeIn, hj])

/-- Between the calls a user who joins comes in once, or is in already. -/
theorem addOrUpdateParticipant_counts (hs : ∀ j other, db.presence j other ≤ 1) (now : Time)
    (k : RoomId) (uid : UserId) :
    (db.addOrUpdateParticipant now k uid).rooms = db.rooms ∧
      (∀ j other, (db.addOrUpdateParticipant now k uid).presence j other =
        if j = k ∧ other = uid then 1 else db.presence j other) ∧
      ∀ j, (db.addOrUpdateParticipant now k uid).occupancy j + (if j = k then db.presence k uid else 0) =
        db.occupancy j + if j = k then 1 else 0 := by
  have hlength : ((db.participants.toList.filter fun x => x.2.activeOf k uid).map Prod.fst).length =
      db.presence k uid := by
    rw [List.length_map]
    exact Table.length_filter_toList db.participants (activeOf k uid)
  unfold Db.addOrUpdateParticipant
  split
  · next first extra hids =>
    rw [hids, List.length_cons] at hlength
    have hone : db.presence k uid = 1 := by
      have := hs k uid
      omega
    obtain rfl : extra = [] := List.length_eq_zero_iff.mp (by omega)
    have hsame : ∀ p : RoomParticipatedUser → Bool, (∀ x t, p { x with joinedAt := t } = p x) →
        (db.participants.modify first fun x => { x with joinedAt := now }).count p =
          db.participants.count p := by
      intro p hp
      refine Table.count_congr rfl fun i => ?_
      rw [Table.row_modify]
      split
      · rw [Option.any_map]
        exact congrArg (Option.any · _) (funext fun x => hp x now)
      · rfl
    refine ⟨rfl, fun j other => ?_, fun j => ?_⟩
    · refine (hsame _ fun _ _ => rfl).trans ?_
      split
      · next h =>
        rw [h.1, h.2]
        exact hone
      · rfl
    · rw [hone]
      exact congrArg (· + _) (hsame _ fun _ _ => rfl)
  · next hids =>
    rw [hids, List.length_nil] at hlength
    refine ⟨rfl, fun j other => ?_, fun j => ?_⟩
    · refine (Table.count_insert _ _ _).trans ?_
      by_cases h : j = k ∧ other = uid
      · obtain ⟨rfl, rfl⟩ := h
        rw [show db.participants.count (activeOf j other) = 0 from hlength.symm]
        simp [activeOf, activeIn]
      · rw [if_neg h, if_neg fun hp => h ?_]
        · rfl
        · simp only [activeOf, activeIn, Option.isNone_none, Bool.and_true, Bool.and_eq_true,
            decide_eq_true_eq] at hp
          exact ⟨hp.1.symm, hp.2.symm⟩
    · have hzero : (if j = k then db.presence k uid else 0) = 0 := by
        rw [← hlength]
        split <;> rfl
      rw [hzero, Nat.add_zero]
      refine (Table.count_insert _ _ _).trans (congrArg _ ?_)
      simp [activeIn, eq_comm]

end Parts

/-! ## The calls -/

section Calls

variable {s t : Db} {now : Time} {k : RoomId} {uid : UserId} {password : Option String}

theorem addUserToRoom_ok (h : addUserToRoom now k uid password s = (.ok (), t)) :
    s.Open now k ∧ t = (s.addOrUpdateParticipant now k uid).updateRoomParticipantCount k := by
  obtain ⟨room, _, hfound, h⟩ := bind_ok.mp h
  obtain ⟨hroom, rfl⟩ := require_ok.mp hfound
  obtain ⟨_, _, hrefuse, h⟩ := bind_ok.mp h
  obtain ⟨hended, rfl⟩ := refuse_ok.mp hrefuse
  obtain ⟨_, v, hverify, h⟩ := bind_ok.mp h
  have hsame : s = v := by
    obtain ⟨_, _, hread, hverify⟩ := bind_ok.mp hverify
    obtain ⟨-, rfl⟩ := require_ok.mp hread
    obtain ⟨_, _, hgiven, hverify⟩ := bind_ok.mp hverify
    obtain ⟨-, rfl⟩ := refuse_ok.mp hgiven
    exact (refuse_ok.mp hverify).2
  subst hsame
  obtain ⟨_, _, hadd, h⟩ := bind_ok.mp h
  obtain rfl := write_ok.mp hadd
  exact ⟨⟨room, hroom, by simpa using hended⟩, (write_ok.mp h).symm⟩

/-- What a leave does to a room that has not ended. -/
theorem after_leave (hopen : s.Open now k) {room : Room} (hroom : s.rooms.row k = some room) :
    s.after (.leave now k uid) =
      if s.presence k uid = 0 then (s.endRoomIfEmpty now k).2
      else if uid = room.hostId then
        ((s.markLeft now k uid).transferOwnershipOrEndRoom now k uid).2
      else ((s.markLeft now k uid).endRoomIfEmpty now k).2 := by
  obtain ⟨room', hroom', hended⟩ := hopen
  obtain rfl := Option.some.inj (hroom.symm.trans hroom')
  have hfound : s.presence k uid = 0 ↔ s.participants.find (activeOf k uid) = none := by
    constructor
    · intro hzero
      cases hfind : s.participants.find (activeOf k uid) with
      | none => rfl
      | some x =>
        obtain ⟨hrow, hactive⟩ := Table.find_some hfind
        rw [Table.count_eq_zero.mp hzero x.1 x.2 hrow] at hactive
        simp at hactive
    · intro hnone
      exact Table.count_eq_zero.mpr fun i p hp => Table.find_none hnone hp
  show commit (removeUserFromRoom now k uid) s = _
  cases hfind : s.participants.find (activeOf k uid) with
  | none =>
    rw [if_pos (hfound.mpr hfind)]
    simp [commit, removeUserFromRoom, settle, hroom, hended, hfind, bind, Txn.bind, require,
      Txn.read, write, pure, Txn.pure]
  | some x =>
    rw [if_neg fun hzero => by simp [hfound.mp hzero] at hfind]
    by_cases hhost : uid = room.hostId
    · subst hhost
      simp [commit, removeUserFromRoom, settle, hroom, hended, hfind, bind, Txn.bind, require,
        Txn.read, write, pure, Txn.pure]
    · simp [commit, removeUserFromRoom, settle, hroom, hended, hfind, hhost, bind, Txn.bind,
        require, Txn.read, write, pure, Txn.pure]

/-- The participations when the user is no longer in the room. -/
structure Left (s v : Db) (k : RoomId) (uid : UserId) : Prop where
  rooms : v.rooms = s.rooms
  presence : ∀ j other, v.presence j other =
    if j = k ∧ other = uid then 0 else s.presence j other
  occupancy : ∀ j, v.occupancy j + (if j = k then s.presence k uid else 0) = s.occupancy j

theorem left_self (h : s.presence k uid = 0) : Left s s k uid := by
  refine ⟨rfl, fun j other => ?_, fun j => ?_⟩
  · split
    · next heq => rw [heq.1, heq.2, h]
    · rfl
  · simp [h]

theorem left_markLeft (s : Db) (now : Time) (k : RoomId) (uid : UserId) :
    Left s (s.markLeft now k uid) k uid :=
  ⟨rfl, fun j other => (markLeft_counts s now k j uid other).1,
    fun j => (markLeft_counts s now k j uid 0).2⟩

/-- A host who has left passes the room on, unless it is empty. -/
theorem transferOwnershipOrEndRoom_eq {v : Db} (hgone : v.presence k uid = 0) (now : Time) :
    (v.occupancy k = 0 ∧
      (v.transferOwnershipOrEndRoom now k uid).2 = (v.endRoomIfEmpty now k).2) ∨
    (v.occupancy k ≠ 0 ∧ ∃ host, (v.transferOwnershipOrEndRoom now k uid).2 =
      v.setRoom k fun room => { room with hostId := host }) := by
  have hall : (v.active k).filter (fun p => p.userId ≠ uid) = v.active k := by
    refine List.filter_eq_self.mpr fun p hp => ?_
    obtain ⟨x, hx, rfl⟩ := List.mem_map.mp hp
    obtain ⟨hmem, hactive⟩ := List.mem_filter.mp hx
    have hother := Table.count_eq_zero.mp hgone x.1 x.2 (Table.mem_toList.mp hmem)
    rw [activeOf, hactive, Bool.true_and, decide_eq_false_iff_not] at hother
    exact decide_eq_true hother
  unfold Db.transferOwnershipOrEndRoom
  rw [hall]
  cases hsorted : (v.active k).insertionSort fun p q => p.joinedAt ≤ q.joinedAt with
  | nil =>
    refine .inl ⟨?_, rfl⟩
    rw [← length_active, ← List.length_insertionSort (fun p q => p.joinedAt ≤ q.joinedAt), hsorted]
    rfl
  | cons newOwner rest =>
    refine .inr ⟨fun hzero => ?_, newOwner.userId, rfl⟩
    rw [← length_active, ← List.length_insertionSort (fun p q => p.joinedAt ≤ q.joinedAt),
      hsorted] at hzero
    simp at hzero

/-- A leave counts the room, or the host passes it on. -/
theorem leave_cases (hs : Counted s) (hopen : s.Open now k) : ∃ v, Left s v k uid ∧
    ((s.after (.leave now k uid) = v.setRoom k (Room.counted now (v.occupancy k)) ∧
      HostStays s (.leave now k uid)) ∨
    (∃ host, s.after (.leave now k uid) = v.setRoom k fun room => { room with hostId := host }) ∧
      s.presence k uid = 1 ∧ v.occupancy k ≠ 0 ∧ ¬ HostStays s (.leave now k uid)) := by
  obtain ⟨room, hroom, hended⟩ := hopen
  rw [after_leave ⟨room, hroom, hended⟩ hroom]
  by_cases hzero : s.presence k uid = 0
  · rw [if_pos hzero]
    exact ⟨s, left_self hzero, .inl ⟨endRoomIfEmpty_eq now k s, fun _ _ _ _ => .inl hzero⟩⟩
  · have hone : s.presence k uid = 1 := by
      have := hs.once k uid
      omega
    have hleft := left_markLeft s now k uid
    have hgone : (s.markLeft now k uid).presence k uid = 0 := by simp [hleft.presence]
    have hcount := hleft.occupancy k
    rw [if_pos rfl, hone] at hcount
    rw [if_neg hzero]
    refine ⟨s.markLeft now k uid, hleft, ?_⟩
    by_cases hhost : uid = room.hostId
    · rw [if_pos hhost]
      rcases transferOwnershipOrEndRoom_eq hgone now with ⟨hempty, heq⟩ | ⟨hothers, host, heq⟩
      · refine .inl ⟨heq.trans (endRoomIfEmpty_eq now k _), fun _ _ _ _ => .inr ?_⟩
        omega
      · refine .inr ⟨⟨host, heq⟩, hone, hothers, fun hstays => ?_⟩
        have := hstays room hroom hended hhost
        omega
    · rw [if_neg hhost]
      refine .inl ⟨endRoomIfEmpty_eq now k _, fun room' hroom' _ hhost' => ?_⟩
      obtain rfl := Option.some.inj (hroom.symm.trans hroom')
      exact absurd hhost' hhost

/-- A room that has ended, or is not there, stays as it is. -/
theorem leave_closed (h : ¬ s.Open now k) : s.after (.leave now k uid) = s := by
  show commit (removeUserFromRoom now k uid) s = s
  cases hroom : s.rooms.row k with
  | none => simp [commit, removeUserFromRoom, hroom, bind, Txn.bind, require]
  | some room =>
    have hended : room.ended now = true := by
      by_contra hnot
      exact h ⟨room, hroom, by simpa using hnot⟩
    simp [commit, removeUserFromRoom, hroom, hended, bind, Txn.bind, require, pure, Txn.pure]

theorem join_cases (s : Db) (now : Time) (k : RoomId) (uid : UserId) (password : Option String) :
    (addUserToRoom now k uid password s = (.ok (), s.after (.join now k uid password)) ∧
      s.Open now k ∧ s.after (.join now k uid password) =
        (s.addOrUpdateParticipant now k uid).updateRoomParticipantCount k) ∨
    (∀ t, addUserToRoom now k uid password s ≠ (.ok (), t)) ∧
      s.after (.join now k uid password) = s := by
  show _ ∧ _ ∧ commit (addUserToRoom now k uid password) s = _ ∨
    _ ∧ commit (addUserToRoom now k uid password) s = s
  cases h : addUserToRoom now k uid password s with
  | mk result t =>
    cases result with
    | ok u =>
      have hcommit : commit (addUserToRoom now k uid password) s = t := by simp [commit, h]
      obtain ⟨hopen, ht⟩ := addUserToRoom_ok h
      left
      rw [show s.after (.join now k uid password) = t from hcommit, hcommit]
      exact ⟨rfl, hopen, ht⟩
    | error e => exact .inr ⟨fun t' => by simp, by simp [commit, h]⟩

/-! ## The law -/

theorem Left.known {v : Db} (h : Left s v k uid) (hs : Counted s) (f : Room → Room) (j : RoomId)
    (hj : (v.setRoom k f).rooms.row j = none) : (v.setRoom k f).occupancy j = 0 := by
  have hnone : s.rooms.row j = none := by
    have hj : (v.rooms.modify k f).row j = none := hj
    rw [Table.row_modify, h.rooms] at hj
    split at hj
    · exact Option.map_eq_none_iff.mp hj
    · exact hj
  have hcount := h.occupancy j
  rw [hs.known j hnone] at hcount
  exact Nat.eq_zero_of_add_eq_zero_right hcount

theorem Left.once {v : Db} (h : Left s v k uid) (hs : Counted s) (j : RoomId) (other : UserId) :
    v.presence j other ≤ 1 := by
  rw [h.presence]
  split
  · exact Nat.zero_le 1
  · exact hs.once j other

/-- A leave that counts keeps what holds between the calls. -/
theorem Left.counted {v : Db} (h : Left s v k uid) (hs : Counted s) (now : Time) :
    Counted (v.setRoom k (Room.counted now (v.occupancy k))) where
  known := h.known hs _
  once := h.once hs
  count := by
    intro j room hroom hpos
    have hroom : (v.rooms.modify k (Room.counted now (v.occupancy k))).row j = some room := hroom
    rw [Table.row_modify, h.rooms] at hroom
    split at hroom
    · next hj =>
      subst hj
      obtain ⟨old, -, rfl⟩ := Option.map_eq_some_iff.mp hroom
      have hpos : 0 < v.occupancy j := hpos
      rw [Room.counted, if_neg fun hempty => by omega]
      rfl
    · next hj =>
      have hcount := h.occupancy j
      rw [if_neg hj, Nat.add_zero] at hcount
      rw [occupancy_setRoom, hcount]
      exact hs.count j room hroom (by rwa [occupancy_setRoom, hcount] at hpos)

/-- A leave that counts leaves what the law asks for. -/
theorem Left.occupied {v : Db} (h : Left s v k uid) (hs : Counted s) (hopen : s.Open now k) :
    Occupied s (v.setRoom k (Room.counted now (v.occupancy k))) now k uid True := by
  obtain ⟨old, hold, hended⟩ := hopen
  have hrow : ∀ {room}, (v.setRoom k (Room.counted now (v.occupancy k))).rooms.row k = some room →
      room = old.counted now (v.occupancy k) := by
    intro room hroom
    have hroom : (v.rooms.modify k (Room.counted now (v.occupancy k))).row k = some room := hroom
    rw [Table.row_modify, if_pos rfl, h.rooms, hold] at hroom
    exact (Option.some.inj hroom).symm
  have hcount := h.occupancy k
  rw [if_pos rfl] at hcount
  have hle := hs.once k uid
  refine ⟨fun room hroom => ?_, h.once hs k, fun room hroom hmode hpos => ?_⟩
  · rw [hrow hroom, occupancy_setRoom, Room.counted]
    split
    · next hempty => exact hempty.1.symm
    · rfl
  · have hroom := hrow hroom
    subst hroom
    have hsame : (old.counted now (v.occupancy k)).tournamentMode = old.tournamentMode := by
      unfold Room.counted
      split <;> rfl
    rw [hsame] at hmode
    by_cases hempty : v.occupancy k = 0
    · rw [Room.counted, if_pos ⟨hempty, hmode⟩]
      refine iff_of_true (by simp [Room.ended]) ⟨trivial, ?_, ?_⟩ <;> omega
    · rw [Room.counted, if_neg fun hc => hempty hc.1]
      refine iff_of_false ?_ fun hc => hempty (by omega)
      rw [Bool.not_eq_true]
      exact hended

/-- A host who leaves others behind leaves the old count. -/
theorem Left.miscounted {v : Db} (h : Left s v k uid) (hs : Counted s) (hopen : s.Open now k)
    {host : UserId} (hone : s.presence k uid = 1) (leaves : Prop) :
    ¬ Occupied s (v.setRoom k fun room => { room with hostId := host }) now k uid leaves := by
  intro hlaw
  obtain ⟨room, hroom, -⟩ := hopen
  have hcount := h.occupancy k
  rw [if_pos rfl, hone] at hcount
  have hold := hs.count k room hroom (by omega)
  have hnew := hlaw.count { room with hostId := host } (by
    show (v.rooms.modify k _).row k = _
    rw [Table.row_modify, if_pos rfl, h.rooms, hroom]
    rfl)
  rw [occupancy_setRoom] at hnew
  have hsame : room.participantCount = v.occupancy k := hnew
  omega

/-- The rooms after a user joined. -/
theorem join_counted (hs : Counted s) (hopen : s.Open now k) :
    Counted ((s.addOrUpdateParticipant now k uid).updateRoomParticipantCount k) ∧
      Occupied s ((s.addOrUpdateParticipant now k uid).updateRoomParticipantCount k) now k uid
        False := by
  obtain ⟨hrooms, hpresence, hoccupancy⟩ := addOrUpdateParticipant_counts hs.once now k uid
  generalize s.addOrUpdateParticipant now k uid = v at *
  obtain ⟨old, hold, hended⟩ := hopen
  have honce : ∀ j other, v.presence j other ≤ 1 := by
    intro j other
    rw [hpresence]
    split
    · exact le_rfl
    · exact hs.once j other
  have hrow : ∀ {j room}, (v.updateRoomParticipantCount k).rooms.row j = some room →
      if j = k then room = { old with participantCount := v.occupancy k }
      else s.rooms.row j = some room := by
    intro j room hroom
    have hroom : (v.rooms.modify k fun room =>
      { room with participantCount := (v.active k).length }).row j = some room := hroom
    rw [Table.row_modify, hrooms, length_active] at hroom
    split
    · next hj =>
      rw [if_pos hj, hj, hold] at hroom
      exact (Option.some.inj hroom).symm
    · next hj =>
      rw [if_neg hj] at hroom
      exact hroom
  refine ⟨⟨fun j hj => ?_, honce, fun j room hroom hpos => ?_⟩, fun room hroom => ?_, honce k,
    fun room hroom _ _ => iff_of_false ?_ And.left⟩
  · have hj : (v.rooms.modify k _).row j = none := hj
    rw [Table.row_modify, hrooms] at hj
    have hcount := hoccupancy j
    split at hj
    · next heq =>
      rw [heq, hold] at hj
      simp at hj
    · next heq =>
      rw [if_neg heq, if_neg heq, hs.known j hj] at hcount
      exact hcount
  · have hroom := hrow hroom
    split at hroom
    · next hj => rw [hroom, hj]; rfl
    · next hj =>
      have hcount := hoccupancy j
      rw [if_neg hj, if_neg hj, Nat.add_zero, Nat.add_zero] at hcount
      have hpos : 0 < v.occupancy j := hpos
      exact (hs.count j room hroom (hcount ▸ hpos)).trans hcount.symm
  · have hroom := hrow hroom
    rw [if_pos rfl] at hroom
    rw [hroom]
    rfl
  · have hroom := hrow hroom
    rw [if_pos rfl] at hroom
    rw [hroom, Bool.not_eq_true]
    exact hended

/-- **One event.**  Its law holds exactly if no host leaves others behind, and then it
keeps what holds between the calls. -/
theorem event_law (hs : Counted s) (e : Event) :
    (OccupancyLaw s e ↔ HostStays s e) ∧ (HostStays s e → Counted (s.after e)) := by
  cases e with
  | created room =>
    refine ⟨Iff.rfl, fun _ => ⟨fun j hj => ?_, hs.once, fun j old hold hpos => ?_⟩⟩
    · have hj : (s.rooms.insert room).row j = none := hj
      rw [Table.row_insert] at hj
      split at hj
      · simp at hj
      · exact hs.known j hj
    · have hold : (s.rooms.insert room).row j = some old := hold
      rw [Table.row_insert] at hold
      split at hold
      · next hj =>
        have hnone := hs.known j (hj ▸ Table.row_next s.rooms)
        exact absurd hpos (by rw [show (s.after (.created room)).occupancy j = 0 from hnone]; simp)
      · exact hs.count j old hold hpos
  | join now k uid password =>
    rcases join_cases s now k uid password with ⟨hok, hopen, heq⟩ | ⟨herror, heq⟩
    · obtain ⟨hcounted, hoccupied⟩ := join_counted hs hopen
      refine ⟨iff_of_true (fun _ => ?_) trivial, fun _ => heq ▸ hcounted⟩
      rw [heq]
      exact hoccupied
    · refine ⟨iff_of_true (fun ⟨t, ht⟩ => absurd ht (herror t)) trivial, fun _ => ?_⟩
      rw [heq]
      exact hs
  | leave now k uid =>
    by_cases hopen : s.Open now k
    · obtain ⟨v, hleft, ⟨heq, hstays⟩ | ⟨⟨host, heq⟩, hone, -, hleaves⟩⟩ :=
        leave_cases hs hopen
      · refine ⟨iff_of_true (fun _ => ?_) hstays, fun _ => ?_⟩
        · rw [heq]
          exact hleft.occupied hs hopen
        · rw [heq]
          exact hleft.counted hs now
      · refine ⟨iff_of_false (fun hlaw => ?_) hleaves, fun h => absurd h hleaves⟩
        have hoccupied := hlaw hopen
        rw [heq] at hoccupied
        exact hleft.miscounted hs hopen hone True hoccupied
    · refine ⟨iff_of_true (fun h => absurd h hopen) fun room hroom hended _ => ?_, fun _ => ?_⟩
      · exact absurd ⟨room, hroom, hended⟩ hopen
      · rw [leave_closed hopen]
        exact hs

end Calls

/-! ## Runs -/

/-- The law holds of every event of a history. -/
def OccupancyLaws : List (Event × Db) → Prop :=
  Every fun past e _ => OccupancyLaw (endState Db.empty past) e

/-- No host leaves others behind in a history. -/
def HostsStay : List (Event × Db) → Prop :=
  Every fun past e _ => HostStays (endState Db.empty past) e

theorem counted_empty : Counted Db.empty where
  known := fun _ _ => rfl
  once := fun _ _ => Nat.zero_le 1
  count := fun _ _ h => by simp [Db.empty] at h

/-- Along every run, the calls leave what the law asks for exactly as long as no host
leaves others behind. -/
theorem occupancy_law {s : Db} {h : List (Event × Db)}
    (hrun : Trace Step (fun _ _ => True) Db.empty h s) : OccupancyLaws h ↔ HostsStay h := by
  refine hrun.every_iff (I := fun _ s => Counted s) counted_empty
    fun past s e t hinv hend hstep => ?_
  cases hstep
  rw [hend]
  exact event_law hinv e

/-- The history of some events on no rooms, the newest first. -/
def history : List Event → List (Event × Db)
  | [] => []
  | e :: past => (e, (endState Db.empty (history past)).after e) :: history past

theorem trace_history (es : List Event) :
    Trace Step (fun _ _ => True) Db.empty (history es) (endState Db.empty (history es)) := by
  induction es with
  | nil => exact .refl
  | cons e past ih => exact ih.tail trivial (.mk _ e)

/-- Users 1 and 2 join the room of user 1. -/
def twoInRoom : List Event := [.join 11 1 2 none, .join 10 1 1 none, .created { hostId := 1 }]

/-- The guest leaves, and then the host. -/
theorem occupancy_law_guest_first :
    OccupancyLaws (history (.leave 21 1 1 :: .leave 20 1 2 :: twoInRoom)) ∧
      ((endState Db.empty (history (.leave 21 1 1 :: .leave 20 1 2 :: twoInRoom))).rooms.row 1).map
        (fun room => (room.participantCount, room.ended 21)) = some (0, true) := by
  refine ⟨(occupancy_law (trace_history _)).mpr ?_, by decide⟩
  refine ⟨⟨⟨⟨⟨trivial, trivial⟩, trivial⟩, trivial⟩, fun room hroom _ hhost => ?_⟩,
    fun _ _ _ _ => .inr (by decide)⟩
  obtain rfl := Option.some.inj hroom
  exact absurd hhost (by decide)

/-- The host leaves first: the room goes on with one member and counts two. -/
theorem host_leaves_count : ¬ ∀ (h : List (Event × Db)) (s : Db),
    Trace Step (fun _ _ => True) Db.empty h s → OccupancyLaws h := by
  intro hlaw
  have hlast := (hlaw _ _ (trace_history (.leave 20 1 1 :: twoInRoom))).2
  have hoccupied := hlast ⟨{ hostId := 1, participantCount := 2 }, by decide, by decide⟩
  have hcount := hoccupied.count { hostId := 2, participantCount := 2 } (by decide)
  exact absurd hcount (by decide)

end Soms.Rooms
