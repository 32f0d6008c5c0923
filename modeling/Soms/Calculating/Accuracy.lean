import Soms.Replays.Retention
import Soms.Scores.Data

/-!
# Accuracy and rank

`calculate_accuracy` and `calculate_rank` of `calculating/osu.py`, from the counts of a score and
those of the maximum.
-/

namespace Soms.Calculating

open Soms.Scores

/-- The fields of a score that the calculation reads. -/
structure ScoreData where
  gamemode : GameMode
  mods : List APIMod
  passed : Bool
  accuracy : ℚ
  n300 : Int
  n100 : Int
  n50 : Int
  nmiss : Int
  ngeki : Int
  nkatu : Int
  nlargeTickMiss : Int
  nlargeTickHit : Int
  nsliderTailHit : Int
  nsmallTickMiss : Int
  nsmallTickHit : Int
  maximumStatistics : ScoreStatistics

/-- `_DEFAULT_ACCURACY_BASE_SCORES`, zero for what it has not. -/
def defaultAccuracyBaseScore : HitResult → Int
  | .miss => 0
  | .meh => 50
  | .ok => 100
  | .good => 200
  | .great => 300
  | .perfect => 300
  | .smallTickMiss => 0
  | .smallTickHit => 10
  | .largeTickMiss => 0
  | .largeTickHit => 30
  | .sliderTailHit => 150
  | .smallBonus => 10
  | .largeBonus => 100
  | _ => 0

/-- `_ACCURACY_BASE_SCORE_OVERRIDES` -/
def accuracyBaseScoreOverride : GameMode → HitResult → Option Int
  | .taiko, .ok => some 150
  | .fruits, .great => some 300
  | .fruits, .largeTickHit => some 300
  | .fruits, .smallTickHit => some 300
  | .fruits, .largeBonus => some 200
  | .mania, .perfect => some 305
  | _, _ => none

/-- `_get_accuracy_base_score` -/
def getAccuracyBaseScore (mode : GameMode) (r : HitResult) : Int :=
  (accuracyBaseScoreOverride mode r).getD (defaultAccuracyBaseScore r)

/-- `_hit_result_affects_accuracy` -/
def hitResultAffectsAccuracy : HitResult → Bool
  | .none | .ignoreHit | .ignoreMiss | .smallBonus | .largeBonus | .comboBreak
  | .legacyComboIncrease => false
  | _ => true

/-- `_calculate_accuracy_base_score` -/
def calculateAccuracyBaseScore (mode : GameMode) (statistics : ScoreStatistics) : Int :=
  ((HitResult.all.filter hitResultAffectsAccuracy).map fun r =>
    statistics r * getAccuracyBaseScore mode r).sum

/-- `_get_score_statistics` -/
def getScoreStatistics (score : ScoreData) : ScoreStatistics
  | .miss => score.nmiss
  | .meh => score.n50
  | .ok => score.n100
  | .good => score.nkatu
  | .great => score.n300
  | .perfect => score.ngeki
  | .largeTickMiss => score.nlargeTickMiss
  | .largeTickHit => score.nlargeTickHit
  | .sliderTailHit => score.nsliderTailHit
  | .smallTickMiss => score.nsmallTickMiss
  | .smallTickHit => score.nsmallTickHit
  | _ => 0

/-- `_score_has_any_mod` -/
def scoreHasAnyMod (score : ScoreData) (acronyms : List String) : Bool :=
  score.mods.any fun mod => decide (mod.acronym ∈ acronyms)

/-- `calculate_accuracy`, `none` where not implemented. -/
def calculateAccuracy (score : ScoreData) : Option ℚ :=
  let mode := Replays.toBaseRuleset score.gamemode
  if mode ∉ [GameMode.osu, .taiko, .fruits, .mania] then none
  else
    let baseScore := calculateAccuracyBaseScore mode (getScoreStatistics score)
    let maximumBaseScore := calculateAccuracyBaseScore mode score.maximumStatistics
    some (if maximumBaseScore = 0 then 1 else (baseScore : ℚ) / maximumBaseScore)

/-- `calculate_rank`, `none` where not implemented. -/
def calculateRank (score : ScoreData) : Option Rank :=
  if score.passed = false then some .f
  else
    let hidden := scoreHasAnyMod score ["FL", "HD"]
    let acc := score.accuracy
    match Replays.toBaseRuleset score.gamemode with
    | .osu | .taiko => some <|
      if acc = 1 then if hidden then .xh else .x
      else if 95 / 100 ≤ acc ∧ score.nmiss = 0 then if hidden then .sh else .s
      else if 90 / 100 ≤ acc then .a
      else if 80 / 100 ≤ acc then .b
      else if 70 / 100 ≤ acc then .c
      else .d
    | .fruits => some <|
      if acc = 1 then if hidden then .xh else .x
      else if 98 / 100 ≤ acc then if hidden then .sh else .s
      else if 94 / 100 ≤ acc then .a
      else if 90 / 100 ≤ acc then .b
      else if 85 / 100 ≤ acc then .c
      else .d
    | .mania => some <|
      if score.nkatu = 0 ∧ score.n100 = 0 ∧ score.n50 = 0 ∧ score.nmiss = 0 then
        if hidden then .xh else .x
      else if 95 / 100 ≤ acc then if hidden then .sh else .s
      else if 90 / 100 ≤ acc then .a
      else if 80 / 100 ≤ acc then .b
      else if 70 / 100 ≤ acc then .c
      else .d
    | _ => none

end Soms.Calculating
