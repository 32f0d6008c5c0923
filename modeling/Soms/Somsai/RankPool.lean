import Mathlib.Data.Rat.Floor
import Mathlib.Algebra.Order.Field.Rat
import Mathlib.Tactic.FinCases
import Mathlib.Data.Fintype.Basic

/-!
# Divisions and the pool matrix

The divisions of `somsai_rank_pool.py` in ascending order, the rating bands that
name them, and the pool rule of each band.  The star ranges of a rule decide
which warehouse rows are stored as eligible for a rank; a match reads the stored
eligibility only, so a rule here keeps its slots without their ranges.
-/

namespace Soms.Somsai

inductive Band where
  | bronze | silver | gold | platinum | diamond
  deriving DecidableEq, Repr

namespace Band

/-- `BANDS`, in ascending order. -/
def all : List Band := [bronze, silver, gold, platinum, diamond]

/-- `BANDS.index`. -/
def index : Band → Nat
  | bronze => 0
  | silver => 1
  | gold => 2
  | platinum => 3
  | diamond => 4

def name : Band → String
  | bronze => "BRONZE"
  | silver => "SILVER"
  | gold => "GOLD"
  | platinum => "PLATINUM"
  | diamond => "DIAMOND"

end Band

/-- `ROMANS`. -/
def ROMANS : List String := ["I", "II", "III", "IV", "V"]

-- Numerals of `Fin 5` use this.
instance numerals_ne_zero : NeZero 5 := ⟨by decide⟩

/-- A member of `RANKS`: a band with one of the five roman numerals, or the top
division. -/
inductive Rank where
  | division (band : Band) (roman : Fin 5)
  | archsom
  deriving DecidableEq, Repr

/-- The rank as the source spells it. -/
def Rank.name : Rank → String
  | .division band roman => band.name ++ " " ++ ROMANS.getD roman.val ""
  | .archsom => "ARCHSOM"

/-- `RANKS`, in ascending order. -/
def RANKS : List Rank :=
  (Band.all.flatMap fun band => [0, 1, 2, 3, 4].map fun roman => Rank.division band roman) ++
    [Rank.archsom]

/-- `rank_position`. -/
def Rank.position : Rank → Nat
  | .division band roman => band.index * 5 + roman.val
  | .archsom => 25

/-- `RANKS[i]`. -/
def Rank.ofPosition (i : Nat) : Rank := RANKS.getD i .archsom

theorem Rank.ofPosition_position (r : Rank) : Rank.ofPosition r.position = r := by
  cases r with
  | archsom => rfl
  | division band roman =>
    cases band <;> fin_cases roman <;> rfl

/-- Midpoint of the rating band of a rank. -/
def rankMidpointRating : Rank → ℚ
  | .archsom => 3500
  | .division band roman => 500 + band.index * 500 + roman.val * 100 + 50

structure RankPoolRule where
  bestOf : Nat
  bansPerTeam : Nat
  slots : List String
  deriving DecidableEq, Repr

/-- `RULES_BY_BAND` of the five bands. -/
def RankPoolRule.ofBand : Band → RankPoolRule
  | .diamond =>
    { bestOf := 13, bansPerTeam := 2,
      slots := ["NM1", "NM2", "NM3", "NM4", "NM5", "NM6", "HD1", "HD2", "HD3", "HR1", "HR2",
        "HR3", "DT1", "DT2", "DT3", "DT4", "FM1", "FM2", "FM3", "TB"] }
  | .platinum =>
    { bestOf := 11, bansPerTeam := 2,
      slots := ["NM1", "NM2", "NM3", "NM4", "NM5", "HD1", "HD2", "HD3", "HR1", "HR2", "HR3",
        "DT1", "DT2", "DT3", "FM1", "FM2", "FM3", "TB"] }
  | .gold =>
    { bestOf := 9, bansPerTeam := 1,
      slots := ["NM1", "NM2", "NM3", "NM4", "NM5", "HD1", "HD2", "HD3", "HR1", "HR2", "HR3",
        "DT1", "DT2", "DT3", "TB"] }
  | .silver =>
    { bestOf := 7, bansPerTeam := 1,
      slots := ["NM1", "NM2", "NM3", "NM4", "NM5", "HD1", "HD2", "HR1", "HR2", "DT1", "DT2",
        "DT3", "TB"] }
  | .bronze =>
    { bestOf := 7, bansPerTeam := 1,
      slots := ["NM1", "NM2", "NM3", "NM4", "HD1", "HD2", "HR1", "HR2", "DT1", "DT2", "DT3",
        "TB"] }

/-- `rule_for`. -/
def ruleFor : Rank → RankPoolRule
  | .division band _ => RankPoolRule.ofBand band
  | .archsom =>
    { bestOf := 13, bansPerTeam := 2,
      slots := ["NM1", "NM2", "NM3", "NM4", "NM5", "NM6", "HD1", "HD2", "HD3", "HR1", "HR2",
        "HR3", "DT1", "DT2", "DT3", "DT4", "FM1", "FM2", "FM3", "TB"] }

/-- `min(4, max(0, int(x)))` for an integer that floor division produced. -/
def clampRoman (x : Int) : Fin 5 := ⟨(max 0 (min 4 x)).toNat, by omega⟩

/-- `BANDS[i]`. -/
def Band.ofIndex (i : Fin 5) : Band :=
  match i with
  | 0 => .bronze
  | 1 => .silver
  | 2 => .gold
  | 3 => .platinum
  | 4 => .diamond

/-- `rank_from_rating`. -/
def rankFromRating (rating : ℚ) : Rank :=
  if 3000 ≤ rating then .archsom
  else if rating < 600 then .division .bronze 0
  else
    let bandIndex := clampRoman (⌊rating / 500⌋ - 1)
    let romanIndex := clampRoman ⌊(rating - (500 + bandIndex.val * 500)) / 100⌋
    .division (Band.ofIndex bandIndex) romanIndex

/-- `average_rank`: the floor of the mean position, so ties round to the lower pool. -/
def averageRank (ratings : List ℚ) : Rank :=
  if ratings = [] then .division .silver 0
  else
    Rank.ofPosition
      ((ratings.map fun r => (rankFromRating r).position).sum / ratings.length)

/-- Every rule plays an odd number of rounds. -/
theorem ruleFor_bestOf_odd (r : Rank) : (ruleFor r).bestOf % 2 = 1 := by
  cases r with
  | archsom => rfl
  | division band roman => cases band <;> simp [ruleFor, RankPoolRule.ofBand]

theorem ruleFor_slots_nodup (r : Rank) : (ruleFor r).slots.Nodup := by
  cases r with
  | archsom => decide
  | division band roman => cases band <;> simp [ruleFor, RankPoolRule.ofBand]

/-- Every rule has a tiebreaker slot. -/
theorem TB_mem_ruleFor_slots (r : Rank) : "TB" ∈ (ruleFor r).slots := by
  cases r with
  | archsom => decide
  | division band roman => cases band <;> simp [ruleFor, RankPoolRule.ofBand]

end Soms.Somsai
