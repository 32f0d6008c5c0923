import Mathlib
import Soms.Scores.Data

/-!
# Levels

`calculate_score_to_level` of `calculating/osu.py`.  It reads only what is above zero of a total,
and no two such totals have one level.
-/

namespace Soms.Scores

/-- What each level takes. -/
def toNextLevel : List Int :=
  [30000, 100000, 210000, 360000, 550000, 780000, 1050000, 1360000, 1710000, 2100000, 2530000,
    3000000, 3510000, 4060000, 4650000, 5280000, 5950000, 6660000, 7410000, 8200000, 9030000,
    9900000, 10810000, 11760000, 12750000, 13780000, 14850000, 15960000, 17110000, 18300000,
    19530000, 20800000, 22110000, 23460000, 24850000, 26280000, 27750000, 29260000, 30810000,
    32400000, 34030000, 35700000, 37410000, 39160000, 40950000, 42780000, 44650000, 46560000,
    48510000, 50500000, 52530000, 54600000, 56710000, 58860000, 61050000, 63280000, 65550000,
    67860000, 70210001, 72600001, 75030002, 77500003, 80010006, 82560010, 85150019, 87780034,
    90450061, 93160110, 95910198, 98700357, 101530643, 104401157, 107312082, 110263748, 113256747,
    116292144, 119371859, 122499346, 125680824, 128927482, 132259468, 135713043, 139353477,
    143298259, 147758866, 153115959, 160054726, 169808506, 184597311, 208417160, 248460887,
    317675597, 439366075, 655480935, 1041527682, 1733419828, 2975801691, 5209033044, 9225761479,
    99999999999, 99999999999, 99999999999, 99999999999, 99999999999, 99999999999, 99999999999,
    99999999999, 99999999999, 99999999999, 99999999999, 99999999999, 99999999999, 99999999999,
    99999999999, 99999999999]

/-- What the level takes that is read at a fractional level, the last one from then on. -/
def nextLevelRequirement (level : ℚ) : Int :=
  toNextLevel.getD (min (toNextLevel.length - 1) (round level).toNat) 0

/-- The loop, which takes something of the remaining score in each round. -/
def levelLoop : Nat → Int → ℚ → ℚ
  | 0, _, level => level
  | fuel + 1, remainingScore, level =>
    if 0 < remainingScore then
      levelLoop fuel (remainingScore - nextLevelRequirement level)
        (level + min 1 ((remainingScore : ℚ) / nextLevelRequirement level))
    else level

/-- `calculate_score_to_level` -/
def calculateScoreToLevel (totalScore : Int) : ℚ := levelLoop totalScore.toNat totalScore 0 + 1

theorem nextLevelRequirement_pos (level : ℚ) : 0 < nextLevelRequirement level := by
  have hall : ∀ next ∈ toNextLevel, 0 < next := by decide
  have hlength : toNextLevel.length = 115 := rfl
  have hlt : min (toNextLevel.length - 1) (round level).toNat < toNextLevel.length := by omega
  rw [nextLevelRequirement, List.getD_eq_getElem?_getD, List.getElem?_eq_getElem hlt]
  exact hall _ (List.getElem_mem hlt)

theorem levelLoop_of_nonpos (fuel : Nat) {remaining : Int} (h : remaining ≤ 0) (level : ℚ) :
    levelLoop fuel remaining level = level := by
  cases fuel with
  | zero => rfl
  | succ fuel => rw [levelLoop, if_neg (by omega)]

/-- A round that is not the last. -/
theorem levelLoop_of_lt (fuel : Nat) {remaining : Int} {level : ℚ}
    (h : nextLevelRequirement level ≤ remaining) :
    levelLoop (fuel + 1) remaining level =
      levelLoop fuel (remaining - nextLevelRequirement level) (level + 1) := by
  have hpos := nextLevelRequirement_pos level
  have hcast : (0 : ℚ) < nextLevelRequirement level := by exact_mod_cast hpos
  have hle : (nextLevelRequirement level : ℚ) ≤ remaining := by exact_mod_cast h
  rw [levelLoop, if_pos (by omega), min_eq_left ((one_le_div hcast).mpr hle)]

/-- The last round. -/
theorem levelLoop_of_le (fuel : Nat) {remaining : Int} {level : ℚ} (hremaining : 0 < remaining)
    (h : remaining ≤ nextLevelRequirement level) :
    levelLoop (fuel + 1) remaining level = level + remaining / nextLevelRequirement level := by
  have hpos := nextLevelRequirement_pos level
  have hcast : (0 : ℚ) < nextLevelRequirement level := by exact_mod_cast hpos
  have hle : (remaining : ℚ) ≤ nextLevelRequirement level := by exact_mod_cast h
  rw [levelLoop, if_pos hremaining, min_eq_right ((div_le_one hcast).mpr hle),
    levelLoop_of_nonpos fuel (by omega)]

/-- More fuel than the remaining score makes no difference. -/
theorem levelLoop_fuel {fuel fuel' : Nat} {remaining : Int} (level : ℚ)
    (h : remaining.toNat ≤ fuel) (hle : fuel ≤ fuel') :
    levelLoop fuel' remaining level = levelLoop fuel remaining level := by
  induction fuel generalizing fuel' remaining level with
  | zero =>
    rw [levelLoop_of_nonpos 0 (by omega), levelLoop_of_nonpos fuel' (by omega)]
  | succ fuel ih =>
    obtain ⟨fuel', rfl⟩ : ∃ n, fuel' = n + 1 := ⟨fuel' - 1, by omega⟩
    have hpos := nextLevelRequirement_pos level
    rw [levelLoop, levelLoop]
    split
    · exact ih _ (by omega) (by omega)
    · rfl

/-- A higher remaining score leads to a higher level. -/
theorem levelLoop_lt {fuel : Nat} (remaining remaining' : Int) (level : ℚ)
    (h : remaining'.toNat ≤ fuel) (hpos : 0 < remaining') (hlt : remaining < remaining') :
    levelLoop fuel remaining level < levelLoop fuel remaining' level := by
  induction fuel generalizing remaining remaining' level with
  | zero => omega
  | succ fuel ih =>
    have hnext := nextLevelRequirement_pos level
    have hcast : (0 : ℚ) < nextLevelRequirement level := by exact_mod_cast hnext
    have hltCast : (remaining : ℚ) < remaining' := by exact_mod_cast hlt
    by_cases hlast : remaining' ≤ nextLevelRequirement level
    · rw [levelLoop_of_le fuel hpos hlast]
      by_cases hnone : remaining ≤ 0
      · rw [levelLoop_of_nonpos _ hnone]
        have : (0 : ℚ) < remaining' := by exact_mod_cast hpos
        have := div_pos this hcast
        linarith
      · rw [levelLoop_of_le fuel (by omega) (by omega)]
        have := div_lt_div_of_pos_right hltCast hcast
        linarith
    · rw [levelLoop_of_lt fuel (show nextLevelRequirement level ≤ remaining' by omega)]
      -- What the level takes is less than the larger score, so that one level is passed.
      have hone : level + 1 < levelLoop fuel (remaining' - nextLevelRequirement level) (level + 1) := by
        have hless : levelLoop fuel 0 (level + 1) < _ :=
          ih 0 (remaining' - nextLevelRequirement level) (level + 1) (by omega) (by omega) (by omega)
        rwa [levelLoop_of_nonpos _ (le_refl _)] at hless
      by_cases hnone : remaining ≤ 0
      · rw [levelLoop_of_nonpos _ hnone]
        linarith
      · by_cases hfirst : remaining ≤ nextLevelRequirement level
        · rw [levelLoop_of_le fuel (by omega) hfirst]
          have hle : (remaining : ℚ) ≤ nextLevelRequirement level := by exact_mod_cast hfirst
          have := (div_le_one hcast).mpr hle
          linarith
        · rw [levelLoop_of_lt fuel (by omega)]
          exact ih _ _ (level + 1) (by omega) (by omega) (by omega)

theorem calculateScoreToLevel_lt {a b : Int} (hb : 0 < b) (h : a < b) :
    calculateScoreToLevel a < calculateScoreToLevel b := by
  unfold calculateScoreToLevel
  rw [← levelLoop_fuel 0 (le_refl a.toNat) (show a.toNat ≤ b.toNat by omega)]
  have := levelLoop_lt a b 0 (le_refl b.toNat) hb h
  linarith

theorem calculateScoreToLevel_of_nonpos {a : Int} (h : a ≤ 0) : calculateScoreToLevel a = 1 := by
  rw [calculateScoreToLevel, levelLoop_of_nonpos _ h]
  norm_num

/-- **Levels tell totals apart**, as far as they are above zero. -/
theorem calculateScoreToLevel_eq_iff (a b : Int) :
    calculateScoreToLevel a = calculateScoreToLevel b ↔ max 0 a = max 0 b := by
  rcases le_or_gt a 0 with ha | ha <;> rcases le_or_gt b 0 with hb | hb
  · rw [calculateScoreToLevel_of_nonpos ha, calculateScoreToLevel_of_nonpos hb, max_eq_left ha,
      max_eq_left hb]
    simp
  · refine iff_of_false (calculateScoreToLevel_lt hb (by omega)).ne (by omega)
  · refine iff_of_false (calculateScoreToLevel_lt ha (by omega)).ne' (by omega)
  · rw [max_eq_right ha.le, max_eq_right hb.le]
    refine ⟨fun h => ?_, fun h => by rw [h]⟩
    rcases lt_trichotomy a b with hlt | heq | hgt
    · exact absurd h (calculateScoreToLevel_lt hb hlt).ne
    · exact heq
    · exact absurd h (calculateScoreToLevel_lt ha hgt).ne'

/-! ## The rounds of the loop -/

/-- The body of the loop, on the remaining score and the level. -/
def levelRound (s : Int × ℚ) : Int × ℚ :=
  (s.1 - nextLevelRequirement s.2, s.2 + min 1 ((s.1 : ℚ) / nextLevelRequirement s.2))

/-- The loop ends with its condition, after as many rounds as it takes. -/
structure Stops (start : Int × ℚ) (rounds : Nat) : Prop where
  goes_on : ∀ i < rounds, 0 < (levelRound^[i] start).1
  ends : (levelRound^[rounds] start).1 ≤ 0

theorem exists_stops (fuel : Nat) (remaining : Int) (level : ℚ) (h : remaining.toNat ≤ fuel) :
    ∃ rounds, Stops (remaining, level) rounds ∧
      levelLoop fuel remaining level = (levelRound^[rounds] (remaining, level)).2 := by
  induction fuel generalizing remaining level with
  | zero => exact ⟨0, ⟨fun i hi => absurd hi (Nat.not_lt_zero i), show remaining ≤ 0 by omega⟩, rfl⟩
  | succ fuel ih =>
    by_cases hpos : 0 < remaining
    · have hnext := nextLevelRequirement_pos level
      obtain ⟨rounds, hstops, hlevel⟩ := ih (levelRound (remaining, level)).1
        (levelRound (remaining, level)).2 (by simp only [levelRound]; omega)
      refine ⟨rounds + 1, ⟨fun i hi => ?_, ?_⟩, ?_⟩
      · cases i with
        | zero => exact hpos
        | succ i => exact hstops.goes_on i (by omega)
      · exact hstops.ends
      · rw [levelLoop, if_pos hpos]
        exact hlevel
    · refine ⟨0, ⟨fun i hi => absurd hi (Nat.not_lt_zero i), ?_⟩, ?_⟩
      · show remaining ≤ 0
        omega
      · rw [levelLoop, if_neg hpos]
        rfl

/-- The loop ends for every total, and a larger total has no smaller level. -/
theorem calculateScoreToLevel_stops_monotone :
    (∀ totalScore : Int, ∃ rounds, Stops (totalScore, 0) rounds ∧
      calculateScoreToLevel totalScore = (levelRound^[rounds] (totalScore, 0)).2 + 1) ∧
      Monotone calculateScoreToLevel := by
  constructor
  · intro totalScore
    obtain ⟨rounds, hstops, hlevel⟩ := exists_stops totalScore.toNat totalScore 0 (le_refl _)
    exact ⟨rounds, hstops, congrArg (· + 1) hlevel⟩
  · intro a b hab
    by_cases hb : 0 < b
    · cases hab.eq_or_lt with
      | inl heq => rw [heq]
      | inr hlt => exact (calculateScoreToLevel_lt hb hlt).le
    · rw [calculateScoreToLevel_of_nonpos (by omega), calculateScoreToLevel_of_nonpos (by omega)]

end Soms.Scores
