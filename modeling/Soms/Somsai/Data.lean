import Mathlib.Data.Rat.Defs
import Mathlib.Logic.Function.Basic
import Soms.Library.Table
import Soms.Library.Txn
import Soms.Somsai.RankPool

/-!
# The stored data

The rows of `database/somsai.py` and the JSON state of a match, with the fields
that some modelled function reads.  The reservation key is a `uuid4` in the
source; here the table generates it, which keeps what the code relies on, that
a new key was never used before.

Times are microseconds.  Users, relationships, beatmaps, scores and the map
warehouse belong to other parts of the server and change on their own; they are
the environment of the tables.
-/

namespace Soms.Somsai

abbrev UserId := Nat
abbrev PartyId := Nat
abbrev MatchId := Nat
abbrev RoomId := Nat
abbrev ReservationId := Nat
abbrev RulesetId := Fin 4
abbrev Time := Int

-- Numerals of `RulesetId` use this.
instance rulesets_ne_zero : NeZero 4 := ⟨by decide⟩

/-- `timedelta(seconds=n)`. -/
def seconds (n : Int) : Int := n * 1000000

inductive Format where
  | one | two | three | four
  deriving DecidableEq, Repr

/-- `int(format[0])`. -/
def Format.size : Format → Nat
  | one => 1
  | two => 2
  | three => 3
  | four => 4

/-- A team index, `0` or `1`. -/
inductive Team where
  | red | blue
  deriving DecidableEq, Repr

/-- `1 - team`. -/
def Team.other : Team → Team
  | red => blue
  | blue => red

@[simp] theorem Team.other_other (t : Team) : t.other.other = t := by cases t <;> rfl

@[simp] theorem Team.other_ne (t : Team) : t.other ≠ t := by cases t <;> decide

/-- A list of one value for each team. -/
structure PerTeam (α : Type) where
  red : α
  blue : α
  deriving DecidableEq, Repr

namespace PerTeam

variable {α β : Type}

def get (p : PerTeam α) : Team → α
  | .red => p.red
  | .blue => p.blue

def set (p : PerTeam α) (t : Team) (a : α) : PerTeam α :=
  match t with
  | .red => { p with red := a }
  | .blue => { p with blue := a }

def map (f : α → β) (p : PerTeam α) : PerTeam β := ⟨f p.red, f p.blue⟩

@[simp] theorem get_set_self (p : PerTeam α) (t : Team) (a : α) : (p.set t a).get t = a := by
  cases t <;> rfl

@[simp] theorem get_set_other (p : PerTeam α) (t : Team) (a : α) :
    (p.set t a).get t.other = p.get t.other := by
  cases t <;> rfl

@[simp] theorem get_map (f : α → β) (p : PerTeam α) (t : Team) :
    (p.map f).get t = f (p.get t) := by
  cases t <;> rfl

end PerTeam

/-! ## Rows -/

structure Activity where
  lastSeenAt : Time
  partyId : Option PartyId := none
  reservationId : Option ReservationId := none
  matchId : Option MatchId := none
  deriving DecidableEq, Repr

structure Party where
  captainId : UserId
  members : List UserId
  active : Bool := true
  revision : Nat := 1
  deriving DecidableEq, Repr

inductive InviteStatus where
  | pending | accepted | declined
  deriving DecidableEq, Repr

structure PartyInvite where
  partyId : PartyId
  inviterId : UserId
  targetId : UserId
  status : InviteStatus := .pending
  expiresAt : Time
  deriving DecidableEq, Repr

inductive DirectKind where
  | duel | custom
  deriving DecidableEq, Repr

structure DirectInvite where
  kind : DirectKind
  inviterId : UserId
  targetId : UserId
  matchId : Option MatchId
  rulesetId : RulesetId
  variantId : Nat
  status : InviteStatus := .pending
  expiresAt : Time
  deriving DecidableEq, Repr

/-- `SomsaiReservation.kind`: `somsai:queue`, `somsai:custom`, `somsai:duel` or
`ranked:` followed by a pool. -/
inductive ReservationKind where
  | queue | custom | duel
  | ranked (poolId : Nat)
  deriving DecidableEq, Repr

/-- `kind.startswith("ranked:")`. -/
def ReservationKind.isRanked : ReservationKind → Bool
  | ranked _ => true
  | _ => false

structure Reservation where
  captainId : UserId
  partyId : Option PartyId
  kind : ReservationKind
  members : List UserId
  released : Bool := false
  expiresAt : Time
  deriving DecidableEq, Repr

structure NativeRoom where
  roomId : RoomId
  expiresAt : Time
  deriving DecidableEq, Repr

structure QueueEntry where
  reservationId : ReservationId
  captainId : UserId
  members : List UserId
  format : Format
  rulesetId : RulesetId
  variantId : Nat
  rating : ℚ
  joinedAt : Time
  expiresAt : Time
  deriving DecidableEq, Repr

/-- The columns of `uq_somsai_rating`. -/
structure RatingKey where
  userId : UserId
  rulesetId : RulesetId
  variantId : Nat
  format : Format
  deriving DecidableEq, Repr

structure Rating where
  rating : Int
  wins : Nat := 0
  losses : Nat := 0
  draws : Nat := 0
  games : Nat := 0
  lastDelta : Int := 0
  deriving DecidableEq, Repr

structure DodgePenalty where
  roomId : Int
  userId : UserId
  level : Nat
  createdAt : Time
  expiresAt : Option Time
  accountBanned : Bool
  deriving DecidableEq, Repr

/-! ## Matches -/

inductive Stage where
  | waiting | poolSelect | banning | picking | ready | playing | results | ended | cancelled
  deriving DecidableEq, Repr

/-- `stage in FINAL_STAGES`. -/
def Stage.final : Stage → Bool
  | ended | cancelled => true
  | _ => false

inductive SlotStatus where
  | available | tiebreaker | banned | picked | played
  deriving DecidableEq, Repr

inductive SettingValue where
  | bool (b : Bool)
  | number (q : ℚ)
  | text (s : String)
  deriving DecidableEq, Repr

structure Mod where
  acronym : String
  settings : List (String × SettingValue) := []
  deriving DecidableEq, Repr

structure Slot where
  id : String
  category : String
  beatmapId : Nat
  checksum : String
  mods : List Mod
  status : SlotStatus := .available
  selectedByTeam : Option Team := none
  deriving DecidableEq, Repr

structure PlayerResult where
  userId : UserId
  score : Nat
  accuracy : ℚ
  scoreId : Option Nat
  missing : Bool
  isBot : Bool
  maxCombo : Nat
  statistics : List (String × Int)
  maximumStatistics : List (String × Int)
  rank : String
  passed : Bool
  deriving DecidableEq, Repr

structure HistoryEntry where
  round : Nat
  slotId : String
  playlistItemId : Nat
  teamScores : PerTeam Nat
  winnerTeamId : Option Team
  players : List PlayerResult
  pickedByTeam : Option Team
  forfeit : Bool
  reason : String
  deriving DecidableEq, Repr

structure DraftEntry where
  slotId : String
  teamId : Team
  deriving DecidableEq, Repr

structure Bot where
  userId : UserId
  slotModifiers : List (String × ℚ)
  deriving DecidableEq, Repr

structure BotScore where
  userId : UserId
  score : Nat
  accuracy : ℚ
  maxCombo : Nat
  statistics : List (String × Int)
  maximumStatistics : List (String × Int)
  rank : String
  passed : Bool
  deriving DecidableEq, Repr

structure PoolCandidate where
  id : Nat
  slots : List Slot
  bestOf : Nat
  bansPerTeam : Nat
  deriving DecidableEq, Repr

structure RatingChange where
  userId : UserId
  before : Int
  after : Int
  delta : Int
  impact : Int
  poolRankGap : ℚ
  deriving DecidableEq, Repr

/-- `SomsaiMatch.state`.  `available` is `none` until a map is selected, where
the source reads the key with a default. -/
structure MatchState where
  teams : PerTeam (List UserId)
  bots : List Bot
  botScores : List BotScore
  captains : PerTeam (Option UserId)
  wins : PerTeam Nat
  slots : List Slot
  bestOf : Nat
  bansPerTeam : Nat
  poolCandidates : List PoolCandidate
  poolVotes : List (Team × Nat)
  poolSelected : Bool
  matchRating : Int
  poolRank : Rank
  accepted : List UserId
  ready : List UserId
  bans : PerTeam Nat
  turnTeam : Team
  nextPickTeam : Team
  deadline : Option Time
  privateLobby : Bool
  arbitrary : Bool
  history : List HistoryEntry
  draftHistory : List DraftEntry
  reservations : List ReservationId
  currentSlot : Option String
  playlistItemId : Nat
  settled : Bool
  winnerTeamId : Option Team
  offline : List (UserId × Time)
  connected : List UserId
  available : Option (List UserId)
  serverSeenAt : Time
  resultsNotified : Bool
  forceStart : Bool
  roundStartedAt : Option Time
  reason : String
  ratingChanges : List RatingChange
  impacts : List (UserId × Int)
  deriving DecidableEq, Repr

structure Match where
  format : Format
  rulesetId : RulesetId
  variantId : Nat
  ranked : Bool
  ownerId : UserId
  poolId : Nat
  roomId : RoomId
  stage : Stage
  revision : Nat
  state : MatchState
  updatedAt : Time
  endedAt : Option Time
  deriving DecidableEq, Repr

/-- `members_of`. -/
def membersOf (m : Match) : List UserId := m.state.teams.red ++ m.state.teams.blue

/-- The roster members who are not bots of the match. -/
def humansOf (m : Match) : List UserId :=
  (membersOf m).filter fun uid => !(m.state.bots.any fun bot => bot.userId == uid)

structure PlaylistItem where
  roomId : RoomId
  id : Nat
  beatmapId : Nat
  rulesetId : RulesetId
  requiredMods : List Mod
  allowedMods : List Mod
  deriving DecidableEq, Repr

/-! ## The environment -/

inductive GameMode where
  | osu | taiko | fruits | mania | osurx | osuap | taikorx | fruitsrx
  deriving DecidableEq, Repr

/-- `(GameMode.OSU, GameMode.TAIKO, GameMode.FRUITS, GameMode.MANIA)[ruleset_id]`. -/
def GameMode.ofRuleset : RulesetId → GameMode
  | 0 => .osu
  | 1 => .taiko
  | 2 => .fruits
  | 3 => .mania

structure User where
  username : String
  isActive : Bool := true
  isBot : Bool := false
  restricted : Bool := false
  pmFriendsOnly : Bool := false
  deriving DecidableEq, Repr

structure BeatmapRow where
  checksum : String
  deleted : Bool
  deriving DecidableEq, Repr

structure ScoreRow where
  id : Nat
  userId : UserId
  roomId : Option RoomId
  playlistItemId : Option Nat
  beatmapId : Nat
  mapMd5 : String
  gamemode : GameMode
  totalScore : Int
  accuracy : ℚ
  maxCombo : Nat
  n300 : Nat
  n100 : Nat
  n50 : Nat
  nmiss : Nat
  ngeki : Nat
  nkatu : Nat
  rank : String
  passed : Bool
  deriving DecidableEq, Repr

/-- A row of the map warehouse. -/
structure SomsaiMap where
  slot : String
  category : String
  rulesetId : RulesetId
  variantId : Nat
  beatmapId : Nat
  checksum : String
  mods : List Mod
  eligibleRanks : List Rank
  deriving DecidableEq, Repr

/-- What the rest of the server provides.  `seed` is the starting rating that a
player's current global rank gives, which the rank table decides. -/
structure Env where
  beatmaps : Nat → Option BeatmapRow
  scores : List ScoreRow
  warehouse : List SomsaiMap
  blocked : UserId → UserId → Bool
  follows : UserId → UserId → Bool
  seed : UserId → RulesetId → Int

/-! ## The store -/

/-- All tables.  `settled` records, in order, the matches `settle_ratings` was
applied to; no function reads it. -/
structure World where
  env : Env
  users : Table User
  activity : UserId → Option Activity
  parties : Table Party
  partyInvites : Table PartyInvite
  directInvites : Table DirectInvite
  reservations : Table Reservation
  queue : Table QueueEntry
  matchRows : Table Match
  nativeRooms : UserId → Option NativeRoom
  ratings : RatingKey → Option Rating
  penalties : List DodgePenalty
  nextRoom : RoomId
  playlists : List PlaylistItem
  settled : List MatchId

/-- `HTTPException`, or another exception that no handler takes. -/
inductive Failure where
  | http (status : Nat) (message : String)
  | other (message : String)
  deriving DecidableEq, Repr

abbrev Act := Txn World Failure

/-- The message and status of `reject`. -/
def reject (message : String) (status : Nat := 409) : Failure := .http status message

/-- What one transaction takes from outside: its clock reading and its random
draws.  `expectedScore` is the logistic expectation of a rating difference. -/
structure Ctx where
  now : Time
  firstTeam : MatchId → Team
  shuffle : MatchId → String → List SomsaiMap → List SomsaiMap
  shuffle_perm : ∀ k slot rows, (shuffle k slot rows).Perm rows
  draw : MatchId → String → Nat
  draftNoise : MatchId → Nat → ℚ
  expectedScore : ℚ → ℚ

/-- `secrets.choice`, or `none` for an empty list. -/
def Ctx.choice {α : Type} (ctx : Ctx) (k : MatchId) (purpose : String) (l : List α) : Option α :=
  l[ctx.draw k purpose % l.length]?

theorem Ctx.choice_mem {α : Type} {ctx : Ctx} {k : MatchId} {purpose : String} {l : List α} {a : α}
    (h : ctx.choice k purpose l = some a) : a ∈ l :=
  List.mem_of_getElem? h

/-- `deadline(n)`. -/
def Ctx.deadline (ctx : Ctx) (n : Int) : Time := ctx.now + seconds n

end Soms.Somsai
