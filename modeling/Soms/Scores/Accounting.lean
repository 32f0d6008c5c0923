import Soms.Scores.Levels
import Soms.Scores.Policy

/-!
# What a finalised score adds

`_process_score_pp` and `_process_statistics` of `database/score.py`: the PP
best, the leaderboard rows and the statistics of the user, from one score under
one policy.
-/

namespace Soms.Scores

/-! ## Display score -/

/-- `_convert_standardised_to_classic` -/
def convertStandardisedToClassic (rulesetId : Nat) (total : Nat) (objects : Int) : Int :=
  match rulesetId with
  | 0 => round ((objects ^ 2 * (3257 / 100 : ℚ) + 100000) * total / 1000000)
  | 1 => round ((objects * 1109 + 100000 : ℚ) * total / 1000000)
  | 2 => round ((total / 1000000 * objects : ℚ) ^ 2 * (2162 / 100) + total / 10)
  | _ => total

/-- `get_display_score` -/
def Settings.displayScore (settings : Settings) (sc : Score) : Int :=
  match settings.scoringMode with
  | .standardised => sc.totalScore
  | .classic => convertStandardisedToClassic sc.mode.toInt sc.totalScore
      (((HitResult.all.filter (·.isBasic)).map sc.maximumStatistics).sum)

/-! ## Play time -/

/-- `get_speed_rate` -/
def getSpeedRate (mods : List APIMod) : ℚ :=
  mods.foldl
    (fun rate m =>
      if m.acronym ∈ ["DT", "NC", "HT", "DC"] then
        if m.speedChange.getD 1 = 0 then rate else rate * m.speedChange.getD 1
      else rate)
    1

/-- `get_play_length` -/
def getPlayLength (sc : Score) (beatmapLength : Nat) : Int :=
  truncate (min (beatmapLength / getSpeedRate sc.mods) ((sc.endedAt - sc.startedAt) / 1000000))

/-- `calculate_playtime`: the seconds played and whether they count. -/
def calculatePlaytime (sc : Score) (beatmapLength : Nat) : Int × Bool :=
  let totalLength := getPlayLength sc beatmapLength
  let hits := sc.n300 + sc.n100 + sc.n50 + sc.ngeki + sc.nkatu + sc.nlargeTickHit +
    sc.nlargeTickMiss + sc.nsliderTailHit + sc.nsmallTickHit
  let objects := ((HitResult.all.filter (·.isScorable)).map sc.maximumStatistics).sum
  (totalLength, sc.passed ||
    (decide (8 < totalLength) && decide (5000 ≤ sc.totalScore) &&
      decide (min (1 / 10 * objects : ℚ) 20 ≤ hits)))

/-! ## Statistics -/

namespace UserStatistics

/-- `change_grade_count`, which keeps a counter from going below zero. -/
def changeGradeCount (rank : Rank) (delta : Int) (st : UserStatistics) : UserStatistics :=
  match rank.grade with
  | some g => { st with grades := Function.update st.grades g (st.grades g + delta).toNat }
  | none => st

/-- The score becomes the user's best on its map. -/
def creditBest (rank : Rank) (previous : Option BestRow) (difference : Int)
    (st : UserStatistics) : UserStatistics :=
  let st := st.changeGradeCount rank 1
  let st := match previous with
    | some row => st.changeGradeCount row.rank (-1)
    | none => st
  { st with
    rankedScore := st.rankedScore + difference
    levelCurrent := calculateScoreToLevel st.totalScore }

/-- The play count and the play time of a valid play. -/
def addPlaytime (sc : Score) (beatmapLength : Nat) (st : UserStatistics) : UserStatistics :=
  let (playtime, isValid) := calculatePlaytime sc beatmapLength
  if isValid then
    { st with playCount := st.playCount + 1, playTime := st.playTime + playtime }
  else st

def addHits (sc : Score) (st : UserStatistics) : UserStatistics :=
  let st := { st with
    count100 := st.count100 + (sc.n100 + sc.nkatu)
    count300 := st.count300 + (sc.n300 + sc.ngeki)
    count50 := st.count50 + sc.n50
    countMiss := st.countMiss + sc.nmiss
    totalHits := st.totalHits + (sc.n300 + sc.n100 + sc.n50 + sc.ngeki + sc.nkatu +
      sc.nlargeTickHit + sc.nlargeTickMiss + sc.nsmallTickHit) }
  if sc.mode = .fruits ∨ sc.mode = .fruitsrx then
    { st with
      countMiss := st.countMiss + sc.nlargeTickMiss
      count50 := st.count50 + sc.nsmallTickHit
      count100 := st.count100 + sc.nlargeTickHit }
  else st

end UserStatistics

/-! ## Leaderboard rows -/

/-- `mod_to_save`: the acronyms without repetition, sorted. -/
def modToSave (mods : List APIMod) : List String :=
  (mods.map (·.acronym)).dedup.insertionSort (· ≤ ·)

/-- Write the score over the row that holds the score `old`. -/
def replaceRow (old : ScoreId) (new : BestRow) (rows : List BestRow) : List BestRow :=
  rows.map fun row =>
    if row.scoreId = old then
      { row with scoreId := new.scoreId, totalScore := new.totalScore, rank := new.rank }
    else row

/-- The four cases of a passed score with a leaderboard. -/
def placeBestRow (new : BestRow) (difference : Int) (previous previousMod : Option BestRow)
    (rows : List BestRow) : List BestRow :=
  match previous, previousMod with
  | some best, some mod =>
    if best.scoreId = mod.scoreId then
      if 0 < difference then replaceRow best.scoreId new rows else rows
    else
      let rows :=
        if 0 < difference then rows.filter fun row => row.scoreId ≠ best.scoreId else rows
      if mod.totalScore < new.totalScore then replaceRow mod.scoreId new rows else rows
  | _, _ => rows ++ [new]

namespace State

/-- The display score of the row's score, zero without a row. -/
def displayOf (s : State) (settings : Settings) (row : Option BestRow) : Int :=
  (row.bind fun r => s.scores.row r.scoreId).elim 0 settings.displayScore

/-- The `BestScore` rows of a user in a mode. -/
def ppRows (s : State) (um : UserMode) : BeatmapId → Option PpRow :=
  fun b => s.ppBest ⟨um.1, b, um.2⟩

end State

/-- What `_process_statistics` makes of the user's statistics. -/
def statisticsAfter (sc : Score) (beatmapLength : Nat) (previous : Option BestRow)
    (current difference : Int) (counts ranked hasPp : Bool) (userPp : ℚ × ℚ)
    (st : UserStatistics) : UserStatistics :=
  let st := { st with totalScore := st.totalScore + current }
  let st := if counts then st.creditBest sc.rank previous difference else st
  let st := if sc.passed && ranked then
      { st with maximumCombo := max st.maximumCombo sc.maxCombo }
    else st
  let st := (st.addPlaytime sc beatmapLength).addHits sc
  if sc.passed && hasPp then { st with pp := userPp.1, hitAccuracy := userPp.2 } else st

variable (srv : Server)

/-- `_process_statistics` -/
def processStatistics (sid : ScoreId) (sc : Score) (beatmapLength : Nat)
    (policy : EffectivePolicy) (st : UserStatistics) (s : State) : State :=
  let hasPp := sc.ranked && srv.grants policy .pp
  let hasLeaderboard := sc.leaderboardEligible && srv.grants policy .leaderboard
  let ranked := sc.rankedScoreEligible &&
    (policy.status.givesRankedScore && hasLeaderboard || srv.enableAllBeatmapPp)
  let modForSave := modToSave sc.mods
  let rows := s.bestRows sc.key
  let previous := srv.first rows
  let previousMod := srv.first (rows.filter fun row => row.mods = modForSave)
  let current := srv.displayScore sc
  let difference := current - s.displayOf srv.toSettings previous
  let counts := decide (0 < difference) && sc.passed && ranked
  { s with
    stats := Function.update s.stats sc.key.userMode <| some <|
      statisticsAfter sc beatmapLength previous current difference counts ranked hasPp
        (srv.userPp (s.ppRows sc.key.userMode)) st
    bestRows :=
      if sc.passed && hasLeaderboard then
        Function.update s.bestRows sc.key <|
          placeBestRow ⟨sid, sc.totalScore, modForSave, sc.rank⟩ difference previous previousMod rows
      else s.bestRows
    credited := if counts then Function.update s.credited sc.key (some sid) else s.credited }

/-! ## PP -/

/-- The score becomes the user's PP best on its map if it is better. -/
def placePpBest (sid : ScoreId) (sc : Score) (pp : ℚ) (s : State) : State :=
  if (s.ppBest sc.key).all fun previous => previous.pp < pp then
    { s with ppBest := Function.update s.ppBest sc.key (some ⟨sid, pp, sc.accuracy⟩) }
  else s

/-- `_process_score_pp`, where `calculated` is what the calculation returns if it
is run.  `none` means that it failed. -/
def processScorePp (calculated : Option ℚ) (sid : ScoreId) (sc : Score) (s : State) :
    Option State :=
  if (sc.passed && sc.ranked && srv.modsCanGetPp sc.mode.toInt sc.mods) = false then
    some { s with scores := s.scores.modify sid fun sc => { sc with pp := 0 } }
  else
    (if sc.pp ≠ 0 then some sc.pp else calculated).map fun pp =>
      placePpBest sid sc pp
        { s with scores := s.scores.modify sid fun sc => { sc with pp := pp } }

end Soms.Scores
