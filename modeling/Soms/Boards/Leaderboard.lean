import Soms.Scores.Submit

/-!
# The leaderboard of a map

`get_leaderboard` of `database/score.py`.  A user has one row for each mod set, and the board shows
the users with their best rows.

A row stands for its score, whose total it carries.
-/

namespace Soms.Boards

open Soms.Scores (UserId BeatmapId ScoreId GameMode Settings)

structure TotalScoreBestScore where
  userId : UserId
  scoreId : ScoreId
  beatmapId : BeatmapId
  gamemode : GameMode
  totalScore : Nat
  mods : List String
  deriving DecidableEq, Repr

/-- The table in the order in which `ORDER BY total_score DESC` returns its rows.  The order of
equal totals is the database's: no two queries of a call return rows of the same total. -/
structure BestScoreTable where
  rows : List TotalScoreBestScore
  falling : rows.Pairwise fun a b => b.totalScore ≤ a.totalScore
  nodup : (rows.map (·.scoreId)).Nodup

inductive LeaderboardType where
  | global | friends | country | team
  deriving DecidableEq, Repr

/-- The user who asks. -/
structure User where
  id : UserId
  isSupporter : Bool
  countryCode : String
  teamId : Option Nat
  deriving DecidableEq, Repr

/-- What the queries look up of the users of the rows. -/
structure Users where
  isRestricted : UserId → Bool
  follows : UserId → UserId → Bool
  countryCode : UserId → String
  teamId : UserId → Option Nat

/-! ## Filters -/

/-- `JSON_CONTAINS` both ways. -/
def sameMods (mods mods' : List String) : Bool :=
  mods'.all mods.contains && mods.all mods'.contains

/-- The condition of the leaderboard type, where the user may ask for it. -/
def typeWhere (users : Users) (type : LeaderboardType) (user : Option User) :
    Option (TotalScoreBestScore → Bool) :=
  match type with
  | .global => some fun _ => true
  | .friends =>
    (user.filter (·.isSupporter)).map fun user row => users.follows user.id row.userId
  | .country =>
    (user.filter (·.isSupporter)).map fun user row =>
      users.countryCode row.userId == user.countryCode
  | .team =>
    some fun row => (user.bind (·.teamId)).all fun team => users.teamId row.userId == some team

/-- The condition of the mods, which only supporters may give. -/
def modsWhere (mods : List String) (user : Option User) : Option (TotalScoreBestScore → Bool) :=
  if mods = [] then some fun _ => true
  else (user.filter (·.isSupporter)).map fun _ row => sameMods row.mods mods

/-- `_score_where` -/
def scoreWhere (users : Users) (type : LeaderboardType) (beatmap : BeatmapId) (mode : GameMode)
    (mods : List String) (user : Option User) : Option (TotalScoreBestScore → Bool) := do
  let ofType ← typeWhere users type user
  let ofMods ← modsWhere mods user
  return fun row => row.beatmapId == beatmap && row.gamemode == mode &&
    !users.isRestricted row.userId && ofType row && ofMods row

/-! ## The board -/

/-- `sys.maxsize` -/
def sysMaxsize : Nat := 9223372036854775807

/-- The variables of the loop. -/
structure Progress where
  /-- The dictionary of the users' scores, in the order of insertion. -/
  scores : List TotalScoreBestScore := []
  count : Int
  extraNeed : Nat := 0
  maxScore : Nat := sysMaxsize

/-- One row of a query. -/
def Progress.take (p : Progress) (s : TotalScoreBestScore) : Progress :=
  let p : Progress := match p.scores.find? fun old => old.userId == s.userId with
    | some old =>
      { p with
        extraNeed := p.extraNeed + 1
        count := p.count - 1
        scores :=
          if old.totalScore < s.totalScore then
            p.scores.map fun other => if other.userId = s.userId then s else other
          else p.scores }
    | none => { p with scores := p.scores ++ [s] }
  { p with maxScore := if s.totalScore < p.maxScore then s.totalScore else p.maxScore }

/-- The query of one round. -/
def page (rows : List TotalScoreBestScore) (limit maxScore : Nat) : List TotalScoreBestScore :=
  (rows.filter fun row => decide (row.totalScore < maxScore)).take limit

/-- The loop.  Each round reads as many rows as the last one has read in vain. -/
def readPages (rows : List TotalScoreBestScore) : Nat → Nat → Progress → Option Progress
  | _, 0, p => some p
  | 0, _ + 1, _ => none
  | fuel + 1, limit + 1, p =>
    let p := (page rows (limit + 1) p.maxScore).foldl Progress.take { p with extraNeed := 0 }
    readPages rows fuel p.extraNeed p

/-- The best row of the user, whatever the type of the board. -/
def ownRow (table : BestScoreTable) (beatmap : BeatmapId) (mode : GameMode) (mods : List String)
    (user : User) : Option TotalScoreBestScore :=
  table.rows.find? fun row => row.userId == user.id && row.beatmapId == beatmap &&
    row.gamemode == mode && (mods.isEmpty || sameMods row.mods mods)

/-- The mode in which scores with the mods are listed. -/
def specialMode (settings : Settings) (mode : GameMode) (mods : List String) : GameMode :=
  settings.toSpecialMode mode (mods.map fun acronym => { acronym })

/-- `get_leaderboard`: the scores, that of the user and the count. -/
def getLeaderboard (settings : Settings) (users : Users) (table : BestScoreTable) (fuel : Nat)
    (beatmap : BeatmapId) (mode : GameMode) (type : LeaderboardType) (mods : List String)
    (user : Option User) (limit : Int) :
    Option (List TotalScoreBestScore × Option TotalScoreBestScore × Int) :=
  let mode := specialMode settings mode mods
  match scoreWhere users type beatmap mode mods user with
  | none => some ([], none, 0)
  | some wheres =>
    let rows := table.rows.filter wheres
    (readPages rows fuel limit.toNat { count := rows.length }).map fun p =>
      let resultScores := p.scores.insertionSort fun a b => b.totalScore ≤ a.totalScore
      let userScore := user.bind (ownRow table beatmap mode mods)
      let resultScores := match userScore with
        | some own => if own ∈ resultScores then resultScores else resultScores ++ [own]
        | none => resultScores
      (resultScores, userScore, p.count)

/-! ## Worked boards -/

/-- Nobody is restricted or follows anybody. -/
def plainUsers : Users where
  isRestricted _ := false
  follows _ _ := false
  countryCode _ := "XX"
  teamId _ := none

/-- A row on the map 1 in osu. -/
def rowOf (user score total : Nat) (mods : List String) : TotalScoreBestScore :=
  ⟨user, score, 1, .osu, total, mods⟩

end Soms.Boards
