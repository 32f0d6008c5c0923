import Mathlib.Algebra.Order.Field.Rat
import Mathlib.Data.NNRat.Defs
import Mathlib.Data.List.Sort
import Mathlib.Logic.Function.Basic
import Soms.Library.Catalog
import Soms.Library.Table
import Soms.Library.Txn

/-!
# Scores and what is derived from them

The rows of `database/score.py`, `database/score_token.py`,
`database/beatmap_ranking.py` and of the aggregates that scores feed, with the
fields that some modelled function reads.

Times are microseconds and lengths are seconds.  An MD5 is a number.  Floating
point numbers are rational numbers.
-/

namespace Soms.Scores

abbrev UserId := Nat
abbrev BeatmapId := Nat
abbrev SetId := Nat
abbrev ScoreId := Nat
abbrev TokenId := Nat
abbrev RoomId := Nat
abbrev ItemId := Nat
abbrev Checksum := Nat
abbrev Time := Int

/-- `round`: to the nearest integer, a tie to the even one. -/
def round (q : ℚ) : Int :=
  let n := q.num / q.den
  let rest := 2 * (q.num % q.den)
  if rest < q.den then n
  else if q.den < rest then n + 1
  else if n % 2 = 0 then n else n + 1

/-- `int`: towards zero. -/
def truncate (q : ℚ) : Int := q.num.tdiv q.den

/-! ## Enumerations -/

inductive GameMode where
  | osu | taiko | fruits | mania
  | osurx | osuap | taikorx | fruitsrx
  | sentakki | tau | rush | hishigata | soyokaze
  deriving DecidableEq, Repr

namespace GameMode

/-- `GameMode.__int__` -/
def toInt : GameMode → Nat
  | osu | osurx | osuap => 0
  | taiko | taikorx => 1
  | fruits | fruitsrx => 2
  | mania => 3
  | sentakki => 10
  | tau => 11
  | rush => 12
  | hishigata => 13
  | soyokaze => 14

/-- `GameMode.from_int`, which raises a `KeyError` for other numbers. -/
def fromInt : Nat → Option GameMode
  | 0 => some osu
  | 1 => some taiko
  | 2 => some fruits
  | 3 => some mania
  | 10 => some sentakki
  | 11 => some tau
  | 12 => some rush
  | 13 => some hishigata
  | 14 => some soyokaze
  | _ => none

end GameMode

inductive Rank where
  | x | xh | s | sh | a | b | c | d | f
  deriving DecidableEq, Repr

/-- The grades that `UserStatistics` counts. -/
inductive Grade where
  | ssh | ss | sh | s | a | b | c | d
  deriving DecidableEq, Repr

/-- The counter a rank belongs to.  `F` has none. -/
def Rank.grade : Rank → Option Grade
  | .xh => some .ssh
  | .x => some .ss
  | .sh => some .sh
  | .s => some .s
  | .a => some .a
  | .b => some .b
  | .c => some .c
  | .d => some .d
  | .f => none

inductive HitResult where
  | none | miss | meh | ok | good | great | perfect
  | smallTickMiss | smallTickHit | largeTickMiss | largeTickHit
  | smallBonus | largeBonus | ignoreMiss | ignoreHit | comboBreak
  | sliderTailHit | legacyComboIncrease
  deriving DecidableEq, Repr

namespace HitResult

def all : List HitResult :=
  [none, miss, meh, ok, good, great, perfect, smallTickMiss, smallTickHit, largeTickMiss,
    largeTickHit, smallBonus, largeBonus, ignoreMiss, ignoreHit, comboBreak, sliderTailHit,
    legacyComboIncrease]

def isScorable : HitResult → Bool
  | none | ignoreHit | ignoreMiss => false
  | _ => true

/-- Neither a tick nor a bonus. -/
def isBasic : HitResult → Bool
  | legacyComboIncrease | comboBreak => false
  | largeTickHit | largeTickMiss | smallTickHit | smallTickMiss | sliderTailHit => false
  | smallBonus | largeBonus => false
  | r => r.isScorable

end HitResult

/-- A dictionary of counts, in which an absent result counts zero. -/
abbrev ScoreStatistics := HitResult → Int

inductive BeatmapRankStatus where
  | graveyard | wip | pending | ranked | approved | qualified | loved
  deriving DecidableEq, Repr

namespace BeatmapRankStatus

def hasLeaderboard : BeatmapRankStatus → Bool
  | ranked | approved | qualified | loved => true
  | _ => false

def hasPp : BeatmapRankStatus → Bool
  | ranked | approved => true
  | _ => false

/-- `BeatmapRankStatus.ranked()`: the statuses that give ranked score. -/
def givesRankedScore : BeatmapRankStatus → Bool
  | ranked | approved | loved => true
  | _ => false

end BeatmapRankStatus

inductive ScoringMode where
  | standardised | classic
  deriving DecidableEq, Repr

/-! ## Settings -/

structure Settings where
  enableAllBeatmapLeaderboard : Bool := false
  enableAllBeatmapPp : Bool := false
  enableRx : Bool := false
  enableAp : Bool := false
  somsOsuAssistModes : Bool := false
  scoringMode : ScoringMode := .standardised
  /-- `validate_global_pp_configuration` -/
  globalPp : enableAllBeatmapPp = true → enableAllBeatmapLeaderboard = true := by decide

/-! ## Rows -/

/-- A mod with its speed change and its other settings. -/
structure APIMod where
  acronym : String
  speedChange : Option ℚ := none
  settings : List (String × String) := []
  deriving DecidableEq

structure Beatmap where
  setId : SetId
  checksum : Checksum
  status : BeatmapRankStatus
  /-- `deleted_at is not None` -/
  deleted : Bool := false
  lastUpdated : Option Time := none
  totalLength : Nat := 0
  hitLength : Nat := 0
  deriving DecidableEq, Repr

/-- `BeatmapRankingPolicy`, the override for one difficulty. -/
structure MapPolicy where
  setId : SetId
  status : BeatmapRankStatus
  leaderboardEnabled : Bool
  ppEnabled : Bool
  forceUnranked : Bool
  blocksSetPolicy : Bool
  rankedChecksum : Checksum
  isActive : Bool := true
  deriving DecidableEq, Repr

/-- `BeatmapsetRankingPolicy`, the default for the difficulties of a set. -/
structure SetPolicy where
  status : BeatmapRankStatus
  leaderboardEnabled : Bool
  ppEnabled : Bool
  forceUnranked : Bool
  revisionManifest : BeatmapId → Option Checksum
  isActive : Bool := true

structure ScoreToken where
  userId : UserId
  beatmapId : BeatmapId
  beatmapChecksum : Checksum
  createdAt : Time
  scoreId : Option ScoreId := none
  roomId : Option RoomId := none
  playlistItemId : Option ItemId := none
  clientVersion : String := ""
  deriving DecidableEq, Repr

/-- The rows of one user on one beatmap in one mode. -/
structure MapKey where
  userId : UserId
  beatmapId : BeatmapId
  mode : GameMode
  deriving DecidableEq, Repr

abbrev UserMode := UserId × GameMode

def MapKey.userMode (k : MapKey) : UserMode := (k.userId, k.mode)

structure Score where
  userId : UserId
  beatmapId : BeatmapId
  mode : GameMode
  mods : List APIMod
  passed : Bool
  rank : Rank
  totalScore : Nat
  totalScoreWithoutMods : Nat
  accuracy : ℚ
  maxCombo : Int
  mapMd5 : Checksum
  startedAt : Time
  endedAt : Time
  n300 : Int
  n100 : Int
  n50 : Int
  nmiss : Int
  ngeki : Int
  nkatu : Int
  nlargeTickMiss : Int
  nlargeTickHit : Int
  nsmallTickHit : Int
  nsliderTailHit : Int
  maximumStatistics : ScoreStatistics
  playlistItemId : Option ItemId
  roomId : Option RoomId
  pp : ℚ := 0
  processed : Bool := false
  /-- PP was granted at the submission and not retired since. -/
  ranked : Bool
  leaderboardEligible : Bool
  rankedScoreEligible : Bool
  rankingEligibilitySnapshotted : Bool := true

def Score.key (sc : Score) : MapKey := ⟨sc.userId, sc.beatmapId, sc.mode⟩

/-- `TotalScoreBestScore`, without its key. -/
structure BestRow where
  scoreId : ScoreId
  totalScore : Nat
  mods : List String
  rank : Rank
  deriving DecidableEq, Repr

/-- `BestScore`, without its key. -/
structure PpRow where
  scoreId : ScoreId
  pp : ℚ
  acc : ℚ
  deriving DecidableEq, Repr

/-- `PlaylistBestScore`, without its room and its user. -/
structure PlaylistBest where
  playlistId : ItemId
  scoreId : ScoreId
  totalScore : Nat
  attempts : Nat
  deriving DecidableEq, Repr

/-- `ItemAttemptsCount`, without its room and its user. -/
structure ItemAttempts where
  attempts : Nat
  totalScore : Nat
  pp : ℚ
  completed : Nat
  accuracy : ℚ
  deriving DecidableEq, Repr

structure UserStatistics where
  totalScore : Int := 0
  rankedScore : Int := 0
  levelCurrent : ℚ := 1
  grades : Grade → Nat := fun _ => 0
  maximumCombo : Int := 0
  playCount : Nat := 0
  playTime : Int := 0
  count300 : Int := 0
  count100 : Int := 0
  count50 : Int := 0
  countMiss : Int := 0
  totalHits : Int := 0
  pp : ℚ := 0
  hitAccuracy : ℚ := 0
  replaysWatchedByOthers : Nat := 0

/-! ## The server -/

/-- The settings and what the score pipeline takes from the rest of the server:
the calculators of `app/calculating` and `app/models/mods`, and the row that a
query ordered by total score returns first. -/
structure Server extends Settings where
  /-- `get_mod_multiplier_calculator(...).calculate()`, one where not implemented -/
  modMultiplier : Score → Beatmap → String → ℚ≥0
  /-- `none` where not implemented -/
  calculateAccuracy : Score → Option ℚ
  calculateRank : Score → Option Rank
  modsCanGetPp : Nat → List APIMod → Bool
  /-- `calculate_user_pp` of the user's `BestScore` rows -/
  userPp : (BeatmapId → Option PpRow) → ℚ × ℚ
  /-- `ORDER BY total_score DESC`, `first()`: the order of equal totals is the database's. -/
  first : List BestRow → Option BestRow
  first_none : ∀ rows, first rows = none → rows = []
  first_some : ∀ rows row, first rows = some row →
    row ∈ rows ∧ ∀ row' ∈ rows, row'.totalScore ≤ row.totalScore

/-- The tables. -/
structure State where
  sets : SetId → Bool
  beatmaps : Catalog Beatmap
  mapPolicy : BeatmapId → Option MapPolicy
  setPolicy : SetId → Option SetPolicy
  /-- The difficulties of a set with an unresolved event of the set's scope. -/
  pendingReview : BeatmapId → SetId → Bool
  tokens : Table ScoreToken
  scores : Table Score
  bestRows : MapKey → List BestRow
  /-- The only writer replaces the row, so that there is at most one. -/
  ppBest : MapKey → Option PpRow
  playlistBest : RoomId → UserId → List PlaylistBest
  itemAttempts : RoomId → UserId → Option ItemAttempts
  stats : UserMode → Option UserStatistics
  /-- Ghost: the score whose total `ranked_score` counts for the map.  No
  modelled function reads it. -/
  credited : MapKey → Option ScoreId

namespace State

def empty : State where
  sets := fun _ => false
  beatmaps := .empty
  mapPolicy := fun _ => none
  setPolicy := fun _ => none
  pendingReview := fun _ _ => false
  tokens := .empty
  scores := .empty
  bestRows := fun _ => []
  ppBest := fun _ => none
  playlistBest := fun _ _ => []
  itemAttempts := fun _ _ => none
  stats := fun _ => none
  credited := fun _ => none

end State

inductive Failure where
  | scoreTokenNotFound | scoreNotFound | beatmapNotFound | keyError
  | accountRestricted | roomNotFound | playlistItemNotFound
  | scoreTokenUserMismatch | scoreTokenPlaylistItemMismatch | scoreTokenRoomMismatch
  | submissionRefused
  | lookupError | valueError
  /-- The worker returns before it writes anything. -/
  | skipped
  /-- The PP calculation of a retry failed. -/
  | ppFailed
  deriving DecidableEq, Repr

abbrev Act (α : Type) := Txn State Failure α

end Soms.Scores
