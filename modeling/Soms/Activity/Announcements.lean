import Soms.Library.Run
import Soms.Scores.Accounting

/-!
# First-place announcements

`stage_first_place` and `deliver_announcements` of `soms_activity_service.py`, with the part
of `process_score` around them that moves the leaderboard of one difficulty and mode.

Nobody is restricted and no score is deleted.  The display score, the saved mods and the
eligibility of a score are inputs; `Soms.Scores.Accounting` is where they come from.
-/

namespace Soms.Activity

open Soms.Scores (UserId BeatmapId ScoreId RoomId ItemId GameMode Rank BestRow placeBestRow)

abbrev ActivityId := Nat
abbrev MessageId := Nat
abbrev WorkerId := Nat

/-- A difficulty and a mode. -/
abbrev Board := BeatmapId × GameMode

structure Score where
  userId : UserId
  board : Board
  totalScore : Nat
  displayScore : Int
  mods : List String := []
  rank : Rank := .a
  passed : Bool := true
  hasLeaderboard : Bool := true
  /-- The room and the playlist item. -/
  room : Option (RoomId × ItemId) := none
  processed : Bool := false
  deriving DecidableEq, Repr

/-- What an announcement says. -/
structure Announcement where
  board : Board
  actorId : UserId
  previousId : Option UserId
  deriving DecidableEq, Repr

/-- A row of kind `rank_lost`, whose key is `first:` and the score. -/
structure SomsActivity where
  scoreId : ScoreId
  actorId : UserId
  previousId : Option UserId
  board : Board
  room : Option (RoomId × ItemId)
  announcement : Option Announcement
  chatMessageId : Option MessageId := none
  delivered : Bool := false
  createdAt : Int
  deriving DecidableEq, Repr

structure ChatMessage where
  messageId : MessageId
  /-- The row the message was made for. -/
  activityId : ActivityId
  content : Announcement
  deriving DecidableEq, Repr

/-- What the match of a room is at. -/
structure SomsaiMatch where
  /-- The stage is `playing` or `results`. -/
  inRound : Bool
  playlistItemId : Option ItemId
  deriving DecidableEq, Repr

/-- Where a run of `deliver_announcements` is. -/
inductive Phase where
  | idle
  | scanning (lastSeen : ActivityId)
  /-- The message of the row is committed and the row is not marked yet. -/
  | posted (i : ActivityId)
  deriving DecidableEq, Repr

structure State where
  now : Int
  scores : Table Score
  /-- The `TotalScoreBestScore` rows, with their users. -/
  best : Board → List (UserId × BestRow)
  activities : Table SomsActivity
  messages : List ChatMessage
  /-- `global_message_id_counter` -/
  counter : MessageId
  rounds : RoomId → Option SomsaiMatch
  workers : WorkerId → Phase

/-! ## The leaderboard -/

/-- The row of a score. -/
def Score.row (sid : ScoreId) (sc : Score) : BestRow := ⟨sid, sc.totalScore, sc.mods, sc.rank⟩

/-- By total score and then by score id. -/
def Below (x y : BestRow) : Prop :=
  x.totalScore < y.totalScore ∨ x.totalScore = y.totalScore ∧ x.scoreId < y.scoreId

instance (x y : BestRow) : Decidable (Below x y) := inferInstanceAs (Decidable (_ ∨ _))

/-- The first of some rows, where `better x y` says that `x` comes before a later `y`. -/
def pick {α : Type} (better : α → α → Prop) [DecidableRel better] (rows : List α) : Option α :=
  rows.foldr
    (fun x best => match best with
      | none => some x
      | some y => if better x y then some x else some y)
    none

/-- The first row of a leaderboard. -/
def top (rows : List (UserId × BestRow)) : Option (UserId × BestRow) :=
  pick (fun x y => Below y.2 x.2) rows

namespace State

/-- `current_winner`: the score and its user. -/
def currentWinner (s : State) (b : Board) : Option (ScoreId × UserId) :=
  (top (s.best b)).map fun x => (x.2.scoreId, x.1)

/-- The rows of a user. -/
def userRows (s : State) (b : Board) (uid : UserId) : List BestRow :=
  ((s.best b).filter fun x => x.1 == uid).map Prod.snd

/-- The row with the highest total score. -/
def highest (rows : List BestRow) : Option BestRow :=
  pick (fun x y => y.totalScore ≤ x.totalScore) rows

/-- The display score of the row's score, zero without a row. -/
def displayOf (s : State) (row : Option BestRow) : Int :=
  (row.bind fun r => s.scores.row r.scoreId).elim 0 Score.displayScore

/-- The rows of the user once the score has its place among them. -/
def placedRows (sid : ScoreId) (sc : Score) (s : State) : List BestRow :=
  let rows := s.userRows sc.board sc.userId
  let previous := highest rows
  let previousMod := highest (rows.filter fun row => row.mods = sc.mods)
  placeBestRow (sc.row sid) (sc.displayScore - s.displayOf previous) previous previousMod rows

/-- What `_process_statistics` writes to the leaderboard. -/
def processStatistics (sid : ScoreId) (sc : Score) (s : State) : State :=
  if sc.passed && sc.hasLeaderboard then
    { s with
      best := Function.update s.best sc.board <|
        ((s.best sc.board).filter fun x => x.1 != sc.userId) ++
          (s.placedRows sid sc).map (sc.userId, ·) }
  else s

end State

/-! ## Staging -/

/-- Not announced yet, of the room, the playlist item and the board of the score. -/
def SomsActivity.pendingIn (sc : Score) (a : SomsActivity) : Bool :=
  !a.delivered && a.chatMessageId.isNone && a.room == sc.room && a.board == sc.board

namespace State

/-- The rows that a score of a room replaces. -/
def pending (s : State) (sc : Score) : List SomsActivity :=
  if sc.room.isSome then (s.activities.toList.map Prod.snd).filter (·.pendingIn sc) else []

/-- Intermediate leaders are not announced. -/
def collapse (sc : Score) (s : State) : State :=
  if sc.room.isSome then
    { s with
      activities := s.activities.map fun a =>
        if a.pendingIn sc then { a with delivered := true, announcement := none } else a }
  else s

def stageFirstPlace (sid : ScoreId) (sc : Score) (previous : Option (ScoreId × UserId))
    (s : State) : State :=
  match s.currentWinner sc.board with
  | none => s
  | some (winner, _) =>
    if winner ≠ sid ∨ (s.activities.find fun a => a.scoreId == sid).isSome then s
    else
      let previousId := match s.pending sc with
        | [] => previous.map Prod.snd
        | first :: _ => first.previousId
      let s := s.collapse sc
      if previousId = some sc.userId then s
      else
        { s with
          activities := s.activities.insert {
            scoreId := sid
            actorId := sc.userId
            previousId := previousId
            board := sc.board
            room := sc.room
            announcement := some ⟨sc.board, sc.userId, previousId⟩
            createdAt := s.now } }

/-- A score is processed: the leaderboard, and the announcement of a new first place. -/
def processScore (sid : ScoreId) (s : State) : State :=
  match s.scores.row sid with
  | none => s
  | some sc =>
    if sc.processed then s
    else
      let previous := s.currentWinner sc.board
      let s := s.processStatistics sid sc
      { s with scores := s.scores.modify sid fun sc => { sc with processed := true } }
        |>.stageFirstPlace sid sc previous

/-! ## Delivery -/

/-- `announcement_ready` -/
def announcementReady (s : State) (a : SomsActivity) : Bool :=
  match a.room with
  | none => true
  | some (room, item) =>
    let age := s.now - a.createdAt
    if age < 5 then false
    else if age < 120 &&
        (s.rounds room).any fun m => m.inRound && m.playlistItemId == some item then
      false
    else if age < 120 &&
        (s.scores.find fun sc => sc.room == some (room, item) && !sc.processed).isSome then
      false
    else true

/-- The first row to deliver behind the last one seen, among those that no other transaction has
locked. -/
def candidate (s : State) (lastSeen : ActivityId) (locked : List ActivityId) :
    Option (ActivityId × SomsActivity) :=
  s.activities.toList.find? fun x =>
    !x.2.delivered && x.2.announcement.isSome && decide (lastSeen < x.1) && !locked.contains x.1

def setWorker (w : WorkerId) (p : Phase) (s : State) : State :=
  { s with workers := Function.update s.workers w p }

/-- The message of a row, made if there is none yet. -/
def post (i : ActivityId) (a : SomsActivity) (s : State) : State :=
  match a.chatMessageId.bind fun m => s.messages.find? fun message => message.messageId == m with
  | some _ => s
  | none =>
    match a.announcement with
    | none => s
    | some content =>
      let message := s.counter + 1
      { s with
        counter := message
        messages := s.messages ++ [⟨message, i, content⟩]
        activities := s.activities.modify i fun a => { a with chatMessageId := some message } }

/-- One turn of the loop, up to the first commit. -/
def next (w : WorkerId) (locked : List ActivityId) (s : State) : State :=
  match s.workers w with
  | .scanning lastSeen =>
    match s.candidate lastSeen locked with
    | none => s.setWorker w .idle
    | some (i, a) =>
      if s.announcementReady a then (s.post i a).setWorker w (.posted i)
      else s.setWorker w (.scanning i)
  | _ => s

/-- The rest of the turn: the message is sent and the row is marked. -/
def mark (w : WorkerId) (s : State) : State :=
  match s.workers w with
  | .posted i =>
    { s with activities := s.activities.modify i fun a => { a with delivered := true } }
      |>.setWorker w (.scanning i)
  | _ => s

end State

inductive Event where
  | submit (sc : Score)
  | process (sid : ScoreId)
  | setMatch (room : RoomId) (m : Option SomsaiMatch)
  | tick (seconds : Nat)
  | start (w : WorkerId)
  | next (w : WorkerId) (locked : List ActivityId)
  | mark (w : WorkerId)
  /-- The run ends, with or without a crash. -/
  | stop (w : WorkerId)
  /-- A message id is taken elsewhere, or its transaction rolled back. -/
  | takeId

def State.after (s : State) : Event → State
  | .submit sc => { s with scores := s.scores.insert { sc with processed := false } }
  | .process sid => s.processScore sid
  | .setMatch room m => { s with rounds := Function.update s.rounds room m }
  | .tick seconds => { s with now := s.now + seconds }
  | .start w => if s.workers w = .idle then s.setWorker w (.scanning 0) else s
  | .next w locked => s.next w locked
  | .mark w => s.mark w
  | .stop w => s.setWorker w .idle
  | .takeId => { s with counter := s.counter + 1 }

def State.empty : State where
  now := 0
  scores := .empty
  best := fun _ => []
  activities := .empty
  messages := []
  counter := 0
  rounds := fun _ => none
  workers := fun _ => .idle

inductive Step : State → Event → State → Prop
  | mk (s : State) (e : Event) : Step s e (s.after e)

end Soms.Activity
