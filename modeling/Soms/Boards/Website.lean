import Mathlib.Data.List.DropRight
import Mathlib.Data.Prod.Lex
import Soms.Boards.Leaderboard
import Soms.Library.RowNumber
import Soms.Mods.Definitions

/-!
# The leaderboards of the website

`service/web_beatmap_leaderboard_service.py`, and `current_winner` of
`somsai/services/soms_activity_service.py`, which the announcements of first places ask.  Times are
in seconds.
-/

namespace Soms.Boards.Website

open Soms.Scores (UserId BeatmapId ScoreId GameMode)

/-! ## The tables -/

/-- What the queries read of a score. -/
structure Score where
  id : ScoreId
  userId : UserId
  beatmapId : BeatmapId
  passed : Bool
  processed : Bool
  leaderboardEligible : Bool
  deriving DecidableEq, Repr

structure User where
  id : UserId
  username : String
  countryCode : String
  isActive : Bool
  isBot : Bool
  isSupporter : Bool
  deriving DecidableEq, Repr

inductive UserAccountHistoryType where
  | note | restriction | slience | tournamentBan
  deriving DecidableEq, Repr

structure UserAccountHistory where
  userId : UserId
  type : UserAccountHistoryType
  permanent : Bool
  length : Int
  timestamp : Int
  deriving DecidableEq, Repr

inductive RelationshipType where
  | follow | block
  deriving DecidableEq, Repr

structure Relationship where
  userId : UserId
  targetId : UserId
  type : RelationshipType
  deriving DecidableEq, Repr

/-- The tables with their keys.  A best row is written together with its score, whose user and map
it has. -/
structure Database where
  scores : List Score
  users : List User
  bestScores : List TotalScoreBestScore
  accountHistory : List UserAccountHistory
  relationships : List Relationship
  /-- The mode of a map that exists. -/
  beatmapMode : BeatmapId → Option GameMode
  scoreIds : (scores.map (·.id)).Nodup
  userIds : (users.map (·.id)).Nodup
  bestScoreIds : (bestScores.map (·.scoreId)).Nodup
  hasScore : ∀ row ∈ bestScores, ∃ score ∈ scores, score.id = row.scoreId ∧
    score.userId = row.userId ∧ score.beatmapId = row.beatmapId
  hasUser : ∀ row ∈ bestScores, ∃ user ∈ users, user.id = row.userId

namespace Database

/-- A join with the primary key of the scores. -/
def score? (db : Database) (id : ScoreId) : Option Score := db.scores.find? fun s => s.id == id

/-- A join with the primary key of the users. -/
def user? (db : Database) (id : UserId) : Option User := db.users.find? fun u => u.id == id

/-- `User.is_restricted_query` -/
def isRestricted (db : Database) (now : Int) (userId : UserId) : Bool :=
  db.accountHistory.any fun h => h.userId == userId && h.type == .restriction &&
    (h.permanent || (decide (now < h.timestamp + h.length) && decide (h.timestamp < now)))

/-- The rows with their scores and users that satisfy a condition. -/
def select (db : Database) (cond : TotalScoreBestScore → Score → User → Bool) :
    List TotalScoreBestScore :=
  db.bestScores.filter fun row => (db.score? row.scoreId).any fun score =>
    (db.user? row.userId).any fun user => cond row score user

end Database

/-- `visible_score_conditions` -/
def visibleScoreConditions (db : Database) (now : Int) (score : Score) (user : User) : Bool :=
  score.passed && score.processed && score.leaderboardEligible && user.isActive && !user.isBot &&
    !db.isRestricted now user.id

/-- `ORDER BY total_score DESC, score_id DESC` -/
def boardKey (row : TotalScoreBestScore) : Nat ×ₗ Nat := toLex (row.totalScore, row.scoreId)

/-! ## The three rankings -/

/-- `current_winner` -/
def currentWinner (db : Database) (now : Int) (beatmapId : BeatmapId) (mode : GameMode) :
    Option (ScoreId × UserId × String) := do
  let rows := db.select fun row score user => row.beatmapId == beatmapId && row.gamemode == mode &&
    visibleScoreConditions db now score user
  let row ← (byKey boardKey rows).head?
  let user ← db.user? row.userId
  return (row.scoreId, row.userId, user.username)

/-- `first_place_score_ids` -/
def firstPlaceScoreIds (db : Database) (now : Int) (userId : UserId) (mode : GameMode) :
    List ScoreId :=
  let rows := db.select fun row score user => row.gamemode == mode &&
    visibleScoreConditions db now score user
  let position := rowNumber (·.beatmapId) (byKey boardKey rows)
  (rows.filter fun row => position row == 1 && row.userId == userId).map (·.scoreId)

structure HTTPException where
  status : Nat
  detail : String
  deriving DecidableEq, Repr

/-- The tables of Unicode behind `str.strip` and `str.upper`. -/
structure Unicode where
  isSpace : Char → Bool
  upper : List Char → List Char

/-- The acronyms that the filter names, sorted and each once. -/
def namedMods (unicode : Unicode) (value : List Char) : List String :=
  let strip (text : List Char) := (text.dropWhile unicode.isSpace).rdropWhile unicode.isSpace
  let parts := ((value.splitOn ',').map strip).filter (· ≠ [])
  ((parts.map fun part => String.ofList (unicode.upper part)).dedup).insertionSort (· ≤ ·)

/-- `parse_mod_filter` -/
def parseModFilter (unicode : Unicode) (value : Option (List Char)) (mode : GameMode) :
    Except HTTPException (Option (List String)) :=
  match value with
  | none => .ok none
  | some value =>
    let mods := namedMods unicode value
    if mods = ["NM"] then .ok (some [])
    else if mods = [] ∨ 12 < mods.length ∨
        ∃ mod ∈ mods, (Soms.Mods.apiMods mode.toInt mod).isNone = true then
      .error ⟨422, "Некорректный набор модов"⟩
    else .ok (some mods)

/-- The modes for relax and autopilot have the mod in every selection. -/
def withSpecialMod (mode : GameMode) (mods : List String) : List String :=
  match mode with
  | .osurx => (("RX" :: mods).dedup).insertionSort (· ≤ ·)
  | .osuap => (("AP" :: mods).dedup).insertionSort (· ≤ ·)
  | _ => mods

inductive Scope where
  | global | country | friends
  deriving DecidableEq, Repr

/-- The condition of the scope.  Without a viewer only the global one is served. -/
def scopeCondition (db : Database) (scope : Scope) (viewer : Option User) (user : User) : Bool :=
  match scope, viewer with
  | .global, _ => true
  | _, none => false
  | .country, some viewer => user.countryCode == viewer.countryCode
  | .friends, some viewer => user.id == viewer.id || db.relationships.any fun r =>
      r.userId == viewer.id && r.type == .follow && r.targetId == user.id

/-- A line of the board. -/
structure Line where
  score : Score
  user : User
  position : Nat
  deriving DecidableEq, Repr

structure Page where
  rows : List Line
  top : Option Line
  personal : Option Line
  total : Nat
  mode : GameMode
  deriving DecidableEq, Repr

/-- The subquery `ranked`: the first row of each user with its position. -/
def ranked (rows : List TotalScoreBestScore) : List (TotalScoreBestScore × Nat) :=
  let perUser := firstRows (·.userId) boardKey rows
  perUser.map fun row => (row, rowNumber (fun _ => ()) (byKey boardKey perUser) row)

/-- `query`: the lines by their positions. -/
def query (db : Database) (ranked : List (TotalScoreBestScore × Nat)) : List Line :=
  let lines := ranked.filterMap fun (row, position) => do
    let score ← db.score? row.scoreId
    let user ← db.user? score.userId
    return { score, user, position }
  lines.insertionSort fun a b => a.position ≤ b.position

/-- The check before the additional boards. -/
def requireSupporter (scope : Scope) (mods : Option (List Char)) (viewer : Option User) :
    Except HTTPException Unit :=
  if scope ≠ .global ∨ mods ≠ none then
    match viewer with
    | none => .error ⟨401, "Войдите с supporter, чтобы открыть дополнительные топы"⟩
    | some viewer =>
      if viewer.isSupporter then .ok ()
      else .error ⟨403, "Топ страны, друзей и фильтр по модам доступны с supporter"⟩
  else .ok ()

/-- The mode asked for, else that of the map. -/
def gameMode (db : Database) (beatmapId : BeatmapId) (mode : Option GameMode) : GameMode :=
  mode.getD ((db.beatmapMode beatmapId).getD .osu)

/-- `leaderboard_page` -/
def leaderboardPage (unicode : Unicode) (db : Database) (now : Int) (beatmapId : BeatmapId)
    (mode : Option GameMode) (page pageSize : Nat) (viewer : Option User) (scope : Scope)
    (mods : Option (List Char)) : Except HTTPException Page := do
  requireSupporter scope mods viewer
  let gameMode := gameMode db beatmapId mode
  let selectedMods ← parseModFilter unicode mods gameMode
  let selectedMods := selectedMods.map (withSpecialMod gameMode)
  let rows := db.select fun row score user => row.beatmapId == beatmapId &&
    row.gamemode == gameMode && visibleScoreConditions db now score user &&
    scopeCondition db scope viewer user && selectedMods.all (sameMods row.mods)
  let ranked := ranked rows
  let total := ranked.length
  let found := ((query db ranked).drop ((page - 1) * pageSize)).take pageSize
  return {
    rows := found
    top := if page = 1 ∧ found ≠ [] then found.head?
      else if total ≠ 0 then (query db ranked).head? else none
    personal := viewer.bind fun viewer =>
      (query db (ranked.filter fun (row, _) => row.userId == viewer.id)).head?
    total
    mode := gameMode }

end Soms.Boards.Website
