import Mathlib.Tactic.Ring
import Soms.Calculating.Accuracy
import Soms.Imports.Osr
import Soms.Scores.Submit

/-!
# The score of an uploaded replay

`_uploaded_statistics` and `_uploaded_rank` of `service/score_import_service.py` against the
calculation that `process_score` runs for every score.
-/

namespace Soms.Imports

open Soms.Scores
open Soms.Calculating

/-- `_uploaded_statistics`: the statistics, the maximum statistics and the accuracy. -/
def uploadedStatistics (parsed : ParsedOsrScore) : ScoreStatistics × ScoreStatistics × ℚ :=
  match parsed.header.ruleset with
  | .fruits =>
    let statistics : ScoreStatistics
      | .great => parsed.n300
      | .largeTickHit => parsed.n100
      | .smallTickHit => parsed.n50
      | .miss => parsed.nmiss
      | .smallTickMiss => parsed.nkatu
      | _ => 0
    let total := parsed.n300 + parsed.n100 + parsed.n50 + parsed.nmiss + parsed.nkatu
    let earned := parsed.n300 + parsed.n100 + parsed.n50
    (statistics, (fun | .great => total | _ => 0),
      if total ≠ 0 then (earned : ℚ) / total else 1)
  | .mania =>
    let statistics : ScoreStatistics
      | .perfect => parsed.ngeki
      | .great => parsed.n300
      | .good => parsed.nkatu
      | .ok => parsed.n100
      | .meh => parsed.n50
      | .miss => parsed.nmiss
      | _ => 0
    let total := parsed.ngeki + parsed.n300 + parsed.nkatu + parsed.n100 + parsed.n50 + parsed.nmiss
    let earned := 305 * parsed.ngeki + 300 * parsed.n300 + 200 * parsed.nkatu +
      100 * parsed.n100 + 50 * parsed.n50
    (statistics, (fun | .perfect => total | _ => 0),
      if total ≠ 0 then (earned : ℚ) / (305 * total) else 1)
  | mode =>
    let statistics : ScoreStatistics
      | .great => parsed.n300
      | .ok => parsed.n100
      | .meh => parsed.n50
      | .miss => parsed.nmiss
      | _ => 0
    let total := parsed.n300 + parsed.n100 + parsed.n50 + parsed.nmiss
    let okWeight := if mode = .taiko then 150 else 100
    let earned := 300 * parsed.n300 + okWeight * parsed.n100 + 50 * parsed.n50
    (statistics, (fun | .great => total | _ => 0),
      if total ≠ 0 then (earned : ℚ) / (300 * total) else 1)

/-- The rank of the first threshold that is reached. -/
def firstReached (thresholds : List (ℚ × Rank)) (accuracy : ℚ) : Rank :=
  ((thresholds.find? fun x => decide (x.1 ≤ accuracy)).map (·.2)).getD .d

/-- `_uploaded_rank` -/
def uploadedRank (parsed : ParsedOsrScore) (accuracy : ℚ) (mods : List APIMod) : Rank :=
  let hidden := mods.any fun mod => decide (mod.acronym ∈ ["HD", "FL"])
  if parsed.header.ruleset = .osu ∨ parsed.header.ruleset = .taiko then
    if accuracy = 1 then if hidden then .xh else .x
    else if 95 / 100 ≤ accuracy ∧ parsed.nmiss = 0 then if hidden then .sh else .s
    else firstReached [(90 / 100, .a), (80 / 100, .b), (70 / 100, .c)] accuracy
  else if parsed.header.ruleset = .fruits then
    if accuracy = 1 then if hidden then .xh else .x
    else if 98 / 100 ≤ accuracy then if hidden then .sh else .s
    else firstReached [(94 / 100, .a), (90 / 100, .b), (85 / 100, .c)] accuracy
  else if ¬ (parsed.nkatu ≠ 0 ∨ parsed.n100 ≠ 0 ∨ parsed.n50 ≠ 0 ∨ parsed.nmiss ≠ 0) then
    if hidden then .xh else .x
  else if 95 / 100 ≤ accuracy then if hidden then .sh else .s
  else firstReached [(90 / 100, .a), (80 / 100, .b), (70 / 100, .c)] accuracy

/-- The submission that `prepare_uploaded_osr_score` makes of a replay. -/
def uploadedInfo (parsed : ParsedOsrScore) (mods : List APIMod) : SubmissionInfo where
  rank := uploadedRank parsed (uploadedStatistics parsed).2.2 mods
  totalScore := parsed.totalScore.toNat
  totalScoreWithoutMods := parsed.totalScore.toNat
  accuracy := (uploadedStatistics parsed).2.2
  maxCombo := parsed.maxCombo
  rulesetId := parsed.header.ruleset.toInt
  passed := true
  mods
  statistics := (uploadedStatistics parsed).1
  maximumStatistics := (uploadedStatistics parsed).2.1

/-- What `process_score` takes from a submission for the calculation. -/
def scoreOfInfo (mode : GameMode) (info : SubmissionInfo) : ScoreData where
  gamemode := mode
  mods := info.mods
  passed := info.passed
  accuracy := info.accuracy
  n300 := info.statistics .great
  n100 := info.statistics .ok
  n50 := info.statistics .meh
  nmiss := info.statistics .miss
  ngeki := info.statistics .perfect
  nkatu := info.statistics .good
  nlargeTickMiss := info.statistics .largeTickMiss
  nsmallTickHit := info.statistics .smallTickHit
  nlargeTickHit := info.statistics .largeTickHit
  nsliderTailHit := info.statistics .sliderTailHit
  nsmallTickMiss := info.statistics .smallTickMiss
  maximumStatistics := info.maximumStatistics

/-! ## Agreement -/

/-- The special mode of a mode is a variant of it. -/
theorem toBaseRuleset_toSpecialMode (settings : Settings) {mode : GameMode}
    (hmode : mode ∈ [GameMode.osu, .taiko, .fruits, .mania]) (mods : List APIMod) :
    Replays.toBaseRuleset (settings.toSpecialMode mode mods) = mode := by
  simp only [List.mem_cons, List.not_mem_nil, or_false] at hmode
  unfold Settings.toSpecialMode
  dsimp only
  rcases hmode with rfl | rfl | rfl | rfl <;> repeat' split
  all_goals first | rfl | simp_all

/-- Every result that counts for the accuracy, with its weight. -/
theorem calculateAccuracyBaseScore_eq (mode : GameMode) (st : ScoreStatistics) :
    calculateAccuracyBaseScore mode st =
      st .miss * getAccuracyBaseScore mode .miss + st .meh * getAccuracyBaseScore mode .meh +
      st .ok * getAccuracyBaseScore mode .ok + st .good * getAccuracyBaseScore mode .good +
      st .great * getAccuracyBaseScore mode .great +
      st .perfect * getAccuracyBaseScore mode .perfect +
      st .smallTickMiss * getAccuracyBaseScore mode .smallTickMiss +
      st .smallTickHit * getAccuracyBaseScore mode .smallTickHit +
      st .largeTickMiss * getAccuracyBaseScore mode .largeTickMiss +
      st .largeTickHit * getAccuracyBaseScore mode .largeTickHit +
      st .sliderTailHit * getAccuracyBaseScore mode .sliderTailHit := by
  simp only [calculateAccuracyBaseScore, HitResult.all, List.filter, hitResultAffectsAccuracy,
    List.map, List.sum_cons, List.sum_nil]
  omega

/-- Two ratios that differ by a factor. -/
theorem ratio_eq {base maximum : Int} {earned full k : ℚ} {total : Nat} (hk : k ≠ 0)
    (hbase : (base : ℚ) = k * earned) (hmaximum : (maximum : ℚ) = k * full)
    (hfull : full = 0 ↔ total = 0) :
    (if maximum = 0 then 1 else (base : ℚ) / maximum) =
      if total ≠ 0 then earned / full else 1 := by
  have hzero : maximum = 0 ↔ total = 0 := by
    rw [← hfull, ← @Int.cast_eq_zero ℚ, hmaximum, mul_eq_zero, or_iff_right hk]
  by_cases htotal : total = 0
  · rw [if_pos (hzero.mpr htotal), if_neg (not_not.mpr htotal)]
  · rw [if_neg (mt hzero.mp htotal), if_pos htotal, hbase, hmaximum, mul_div_mul_left _ _ hk]

theorem full_eq_zero {weight : ℚ} (hweight : weight ≠ 0) {total : Nat} :
    weight * total = 0 ↔ total = 0 := by
  rw [mul_eq_zero, or_iff_right hweight, Nat.cast_eq_zero]

section Agreement

variable {settings : Settings} {parsed : ParsedOsrScore} {mods : List APIMod}

/-- The score that is stored for a replay, before its rank is calculated. -/
def uploadedScore (settings : Settings) (parsed : ParsedOsrScore) (mods : List APIMod) :
    ScoreData :=
  scoreOfInfo (settings.toSpecialMode parsed.header.ruleset mods) (uploadedInfo parsed mods)

theorem calculateAccuracy_uploaded
    (hmode : parsed.header.ruleset ∈ [GameMode.osu, .taiko, .fruits, .mania]) :
    calculateAccuracy (uploadedScore settings parsed mods) =
      some (uploadedStatistics parsed).2.2 := by
  have hbase := toBaseRuleset_toSpecialMode settings hmode mods
  unfold calculateAccuracy uploadedScore scoreOfInfo
  dsimp only
  rw [hbase, if_neg (not_not.mpr hmode), calculateAccuracyBaseScore_eq,
    calculateAccuracyBaseScore_eq]
  simp only [List.mem_cons, List.not_mem_nil, or_false] at hmode
  rcases hmode with h | h | h | h
  · simp only [uploadedInfo, uploadedStatistics, h, getScoreStatistics, getAccuracyBaseScore,
      accuracyBaseScoreOverride, defaultAccuracyBaseScore, Option.getD, reduceCtorEq, if_false]
    refine congrArg some (ratio_eq one_ne_zero ?_ ?_ (full_eq_zero (by decide)))
    · push_cast
      ring
    · push_cast
      ring
  · simp only [uploadedInfo, uploadedStatistics, h, getScoreStatistics, getAccuracyBaseScore,
      accuracyBaseScoreOverride, defaultAccuracyBaseScore, Option.getD, if_true]
    refine congrArg some (ratio_eq one_ne_zero ?_ ?_ (full_eq_zero (by decide)))
    · push_cast
      ring
    · push_cast
      ring
  · simp only [uploadedInfo, uploadedStatistics, h, getScoreStatistics, getAccuracyBaseScore,
      accuracyBaseScoreOverride, defaultAccuracyBaseScore, Option.getD]
    refine congrArg some (ratio_eq (show (300 : ℚ) ≠ 0 by decide) ?_ ?_ Nat.cast_eq_zero)
    · push_cast
      ring
    · push_cast
      ring
  · simp only [uploadedInfo, uploadedStatistics, h, getScoreStatistics, getAccuracyBaseScore,
      accuracyBaseScoreOverride, defaultAccuracyBaseScore, Option.getD]
    refine congrArg some (ratio_eq one_ne_zero ?_ ?_ (full_eq_zero (by decide)))
    · push_cast
      ring
    · push_cast
      ring

theorem firstReached_three (p q r accuracy : ℚ) :
    firstReached [(p, .a), (q, .b), (r, .c)] accuracy =
      if p ≤ accuracy then .a
      else if q ≤ accuracy then .b
      else if r ≤ accuracy then .c
      else .d := by
  unfold firstReached
  by_cases hp : p ≤ accuracy
  · simp [hp]
  · by_cases hq : q ≤ accuracy
    · simp [hp, hq]
    · by_cases hr : r ≤ accuracy <;> simp [hp, hq, hr]

theorem calculateRank_uploaded
    (hmode : parsed.header.ruleset ∈ [GameMode.osu, .taiko, .fruits, .mania]) :
    calculateRank (uploadedScore settings parsed mods) =
      some (uploadedRank parsed (uploadedStatistics parsed).2.2 mods) := by
  have hbase := toBaseRuleset_toSpecialMode settings hmode mods
  have hhidden : scoreHasAnyMod (uploadedScore settings parsed mods) ["FL", "HD"] =
      mods.any fun mod => decide (mod.acronym ∈ ["HD", "FL"]) := by
    show (mods.any fun mod => decide (mod.acronym ∈ ["FL", "HD"])) = _
    congr 1
    funext mod
    simp [or_comm]
  have hmode' : (uploadedScore settings parsed mods).gamemode =
    settings.toSpecialMode parsed.header.ruleset mods := rfl
  have haccuracy : (uploadedScore settings parsed mods).accuracy =
    (uploadedStatistics parsed).2.2 := rfl
  have hmiss : (uploadedScore settings parsed mods).nmiss = parsed.nmiss := by
    show (uploadedStatistics parsed).1 .miss = _
    unfold uploadedStatistics
    split <;> rfl
  unfold calculateRank uploadedRank
  rw [if_neg (show ¬ (uploadedScore settings parsed mods).passed = false from fun h => nomatch h),
    hhidden, hmode', hbase, haccuracy, hmiss, firstReached_three, firstReached_three]
  simp only [List.mem_cons, List.not_mem_nil, or_false] at hmode
  rcases hmode with h | h | h | h
  · simp only [h, true_or, if_true, Int.natCast_eq_zero]
  · simp only [h, or_true, if_true, Int.natCast_eq_zero]
  · simp only [h, reduceCtorEq, or_self, if_false, if_true]
  · have hcounts : (uploadedScore settings parsed mods).nkatu = parsed.nkatu ∧
        (uploadedScore settings parsed mods).n100 = parsed.n100 ∧
        (uploadedScore settings parsed mods).n50 = parsed.n50 := by
      show (uploadedStatistics parsed).1 .good = _ ∧ (uploadedStatistics parsed).1 .ok = _ ∧
        (uploadedStatistics parsed).1 .meh = _
      simp only [uploadedStatistics, h, and_self]
    simp only [h, reduceCtorEq, or_self, if_false, hcounts, Int.natCast_eq_zero, not_or, not_not]

end Agreement

/-! ## The stored row -/

/-- The fields of a stored score.  Small tick misses, which weigh nothing, are not among the
fields of the row. -/
def ofScore (sc : Score) : ScoreData where
  gamemode := sc.mode
  mods := sc.mods
  passed := sc.passed
  accuracy := sc.accuracy
  n300 := sc.n300
  n100 := sc.n100
  n50 := sc.n50
  nmiss := sc.nmiss
  ngeki := sc.ngeki
  nkatu := sc.nkatu
  nlargeTickMiss := sc.nlargeTickMiss
  nlargeTickHit := sc.nlargeTickHit
  nsliderTailHit := sc.nsliderTailHit
  nsmallTickMiss := 0
  nsmallTickHit := sc.nsmallTickHit
  maximumStatistics := sc.maximumStatistics

theorem calculateAccuracy_smallTickMiss (score : ScoreData) (n : Int) :
    calculateAccuracy { score with nsmallTickMiss := n } = calculateAccuracy score := by
  have hweight : ∀ mode, getAccuracyBaseScore mode .smallTickMiss = 0 := by
    intro mode
    cases mode <;> rfl
  have hbase : ∀ mode, calculateAccuracyBaseScore mode
      (getScoreStatistics { score with nsmallTickMiss := n }) =
        calculateAccuracyBaseScore mode (getScoreStatistics score) := by
    intro mode
    rw [calculateAccuracyBaseScore_eq, calculateAccuracyBaseScore_eq, hweight mode, Int.mul_zero,
      Int.mul_zero]
    rfl
  unfold calculateAccuracy
  dsimp only
  rw [hbase]

/-- With the server's own calculation, `process_score` stores the accuracy and the rank that the
upload has computed. -/
theorem newScore_uploaded {srv : Server} (haccuracy : ∀ sc, srv.calculateAccuracy sc =
      calculateAccuracy (ofScore sc))
    (hrank : ∀ sc, srv.calculateRank sc = calculateRank (ofScore sc))
    {parsed : ParsedOsrScore}
    (hmode : parsed.header.ruleset ∈ [GameMode.osu, .taiko, .fruits, .mania])
    (mods : List APIMod) (now : Time) (token : ScoreToken) (bm : Beatmap)
    (policy : EffectivePolicy) :
    (newScore srv now token (srv.toSpecialMode parsed.header.ruleset mods) bm policy
        (uploadedInfo parsed mods)).accuracy = (uploadedStatistics parsed).2.2 ∧
      (newScore srv now token (srv.toSpecialMode parsed.header.ruleset mods) bm policy
        (uploadedInfo parsed mods)).rank =
          uploadedRank parsed (uploadedStatistics parsed).2.2 mods := by
  have hacc : calculateAccuracy { uploadedScore srv.toSettings parsed mods with
      nsmallTickMiss := 0 } = some (uploadedStatistics parsed).2.2 := by
    rw [calculateAccuracy_smallTickMiss, calculateAccuracy_uploaded hmode]
  have hrk := @calculateRank_uploaded srv.toSettings parsed mods hmode
  unfold newScore
  simp only [haccuracy, hrank]
  split
  · next accuracy h =>
    obtain rfl := Option.some.inj (h.symm.trans hacc)
    split
    · next rank h' => exact ⟨rfl, Option.some.inj (h'.symm.trans hrk)⟩
    · next h' => exact absurd (h'.symm.trans hrk) (Option.some_ne_none _).symm
  · next h => exact absurd (h.symm.trans hacc) (Option.some_ne_none _).symm

/-- The accuracy and the rank of an uploaded replay are the ones of the score that is stored for
it. -/
theorem uploaded_agrees (settings : Settings) {parsed : ParsedOsrScore}
    (hmode : parsed.header.ruleset ∈ [GameMode.osu, .taiko, .fruits, .mania])
    (mods : List APIMod) :
    calculateAccuracy (uploadedScore settings parsed mods) =
        some (uploadedStatistics parsed).2.2 ∧
      calculateRank { uploadedScore settings parsed mods with
          accuracy := (uploadedStatistics parsed).2.2 } =
        some (uploadedRank parsed (uploadedStatistics parsed).2.2 mods) :=
  ⟨calculateAccuracy_uploaded hmode, calculateRank_uploaded hmode⟩

/-- A mania replay with HD and no hit below GREAT. -/
def maniaReplay : ParsedOsrScore where
  header := ⟨.mania, 20260831, "abcdef0123456789abcdef0123456789", "player"⟩
  replayHash := "replay-md5"
  n300 := 300
  n100 := 0
  n50 := 0
  ngeki := 700
  nkatu := 0
  nmiss := 0
  totalScore := 995000
  maxCombo := 1000
  perfectCombo := true
  legacyMods := 8
  endedAt := 1788179696000000
  onlineScoreId := none

theorem maniaReplay_agrees :
    calculateAccuracy (uploadedScore {} maniaReplay [⟨"HD", none, []⟩]) =
        some (uploadedStatistics maniaReplay).2.2 ∧
      calculateRank { uploadedScore {} maniaReplay [⟨"HD", none, []⟩] with
          accuracy := (uploadedStatistics maniaReplay).2.2 } =
        some (uploadedRank maniaReplay (uploadedStatistics maniaReplay).2.2
          [⟨"HD", none, []⟩]) :=
  uploaded_agrees {} (by decide) [⟨"HD", none, []⟩]

example : uploadedRank maniaReplay 1 [⟨"HD", none, []⟩] = .xh := by decide +kernel

end Soms.Imports
