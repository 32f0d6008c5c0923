import Mathlib.Algebra.Order.BigOperators.Group.List
import Mathlib.Tactic.IntervalCases
import Mathlib.Data.Finset.Max
import Soms.Somsai.Elo
import Soms.Somsai.Change

/-!
# The division of a pool

The divisions go up with the rating, and the average of a roster stays between its extremes.  A
match rating of at most 50 overrides both: its pool is that of the top division.
-/

namespace Soms.Somsai

open Txn

/-! ## Divisions -/

/-- A division is a band of 100 points, from 500 to 3000. -/
theorem position_rankFromRating (r : ℚ) :
    ((rankFromRating r).position : Int) = max 0 (min 25 (⌊r / 100⌋ - 5)) := by
  obtain ⟨f, hf⟩ : ∃ f, f = ⌊r / 100⌋ := ⟨_, rfl⟩
  rw [← hf]
  have hle : (f : ℚ) ≤ r / 100 := hf ▸ Int.floor_le _
  have hlt : r / 100 < f + 1 := hf ▸ Int.lt_floor_add_one _
  unfold rankFromRating
  split_ifs with htop hlow
  · have hhigh : 30 < f + 1 := by
      have : (30 : ℚ) < f + 1 := lt_of_le_of_lt (by linarith) hlt
      exact_mod_cast this
    show (25 : Int) = _
    omega
  · have hhigh : f < 6 := by
      have : (f : ℚ) < 6 := hle.trans_lt (by linarith)
      exact_mod_cast this
    show (0 : Int) = _
    omega
  · have hfirst : 6 ≤ f := hf ▸ Int.le_floor.mpr (by push_cast; linarith)
    have hlast : f < 30 := by
      have : (f : ℚ) < 30 := hle.trans_lt (by linarith)
      exact_mod_cast this
    have hband : ⌊r / 500⌋ = f / 5 := by
      rw [show r / 500 = r / 100 / (5 : ℕ) by push_cast; ring, Int.floor_div_natCast, ← hf]
      rfl
    have hroman : ∀ b : Nat, ⌊(r - (500 + (b : ℚ) * 500)) / 100⌋ = f - (5 + 5 * b) := fun b => by
      rw [show (r - (500 + (b : ℚ) * 500)) / 100 = r / 100 - (5 + 5 * b : ℕ) by push_cast; ring,
        Int.floor_sub_natCast, ← hf]
      push_cast
      rfl
    have hindex : ∀ i, (Band.ofIndex i).index = i.val := by decide
    dsimp only
    rw [hroman, hband]
    simp only [Rank.position, hindex, clampRoman]
    omega

theorem position_mono {r s : ℚ} (h : r ≤ s) :
    (rankFromRating r).position ≤ (rankFromRating s).position := by
  have hr := position_rankFromRating r
  have hs := position_rankFromRating s
  have hfloor : ⌊r / 100⌋ ≤ ⌊s / 100⌋ :=
    Int.floor_le_floor (div_le_div_of_nonneg_right h (by norm_num))
  omega

theorem position_le (r : ℚ) : (rankFromRating r).position ≤ 25 := by
  have := position_rankFromRating r
  omega

/-- The top division has no upper end. -/
theorem position_top {r : ℚ} : 25 ≤ (rankFromRating r).position ↔ 3000 ≤ r := by
  have hposition := position_rankFromRating r
  have hfloor : (30 : Int) ≤ ⌊r / 100⌋ ↔ 3000 ≤ r := by
    rw [Int.le_floor, le_div_iff₀ (by norm_num)]
    norm_num
  rw [← hfloor]
  omega

theorem position_ofPosition {i : Nat} (h : i ≤ 25) : (Rank.ofPosition i).position = i := by
  interval_cases i <;> rfl

/-! ## The average -/

section Average

variable {ratings : List ℚ}

theorem sum_position_le (n : Nat) (h : ∀ r ∈ ratings, (rankFromRating r).position ≤ n) :
    (ratings.map fun r => (rankFromRating r).position).sum ≤ ratings.length * n := by
  have hsum := List.sum_le_card_nsmul (ratings.map fun r => (rankFromRating r).position) n
    fun x hx => by
      obtain ⟨r, hr, rfl⟩ := List.mem_map.mp hx
      exact h r hr
  rwa [List.length_map, nsmul_eq_mul, Nat.cast_id] at hsum

/-- The average position is floored. -/
theorem position_averageRank (h : ratings ≠ []) : (averageRank ratings).position =
    (ratings.map fun r => (rankFromRating r).position).sum / ratings.length := by
  unfold averageRank
  rw [if_neg h]
  refine position_ofPosition (Nat.div_le_of_le_mul ?_)
  exact sum_position_le 25 fun r _ => position_le r

theorem averageRank_le (h : ratings ≠ []) {n : Nat}
    (hall : ∀ r ∈ ratings, (rankFromRating r).position ≤ n) :
    (averageRank ratings).position ≤ n := by
  rw [position_averageRank h]
  exact Nat.div_le_of_le_mul (sum_position_le n hall)

theorem le_averageRank (h : ratings ≠ []) {n : Nat}
    (hall : ∀ r ∈ ratings, n ≤ (rankFromRating r).position) :
    n ≤ (averageRank ratings).position := by
  have hlength : 0 < ratings.length := List.length_pos_iff.mpr h
  rw [position_averageRank h, Nat.le_div_iff_mul_le hlength, mul_comm]
  have hsum := List.card_nsmul_le_sum (ratings.map fun r => (rankFromRating r).position) n
    fun x hx => by
      obtain ⟨r, hr, rfl⟩ := List.mem_map.mp hx
      exact hall r hr
  rwa [List.length_map, nsmul_eq_mul, Nat.cast_id] at hsum

/-- The average is the top division only where every member is in it. -/
theorem averageRank_top (h : ratings ≠ []) :
    25 ≤ (averageRank ratings).position ↔ ∀ r ∈ ratings, 3000 ≤ r := by
  constructor
  · intro htop r hr
    by_contra hlow
    have hless : (rankFromRating r).position < 25 := by
      rw [← not_le, position_top]
      exact hlow
    rw [position_averageRank h, Nat.le_div_iff_mul_le (List.length_pos_iff.mpr h)] at htop
    have hsum : (ratings.map fun r => (rankFromRating r).position).sum <
        (ratings.map fun _ => 25).sum :=
      List.sum_lt_sum _ _ (fun s _ => position_le s) ⟨r, hr, hless⟩
    rw [List.map_const', List.sum_replicate, nsmul_eq_mul, Nat.cast_id] at hsum
    omega
  · exact fun hall => le_averageRank h fun r hr => position_top.mpr (hall r hr)

end Average

/-! ## The pool of a new match -/

section Created

variable {ctx : Ctx} {setup : Setup} {w t : World} {k : MatchId}

/-- The rating of a member in the format that the pool goes by. -/
def Setup.ratingOf (setup : Setup) (w : World) (uid : UserId) : ℚ :=
  (w.ratingRow (setup.ratingKey uid)).rating

/-- The match rating of a roster as it is stored. -/
def Setup.ratingIn (setup : Setup) (w : World) : ℚ :=
  setup.matchRating (setup.humans.map (setup.ratingOf w))

/-- The rank lies between the divisions of the lowest and of the highest rated member. -/
structure Setup.Fits (setup : Setup) (w : World) (rank : Rank) : Prop where
  low : ∀ lo ∈ setup.humans, (∀ uid ∈ setup.humans, setup.ratingOf w lo ≤ setup.ratingOf w uid) →
    (rankFromRating (setup.ratingOf w lo)).position ≤ rank.position
  high : ∀ hi ∈ setup.humans, (∀ uid ∈ setup.humans, setup.ratingOf w uid ≤ setup.ratingOf w hi) →
    rank.position ≤ (rankFromRating (setup.ratingOf w hi)).position

theorem mixedPool_poolRank {warehouse : List SomsaiMap} {rulesetId : RulesetId} {variantId : Nat}
    {rating : ℚ} {rank : Option Rank} {pool : Pool}
    (h : mixedPool ctx k warehouse rulesetId variantId rating rank = .ok pool) :
    pool.poolRank = poolTarget rating rank := by
  unfold mixedPool at h
  dsimp only at h
  split at h
  · simp at h
  · split at h
    · simp at h
    · split at h
      · simp at h
      · injection h with h
        subst h
        rfl

theorem row_opened (ctx : Ctx) (setup : Setup) (pool : Pool) (rating : ℚ) (w : World) :
    (w.openMatch ctx setup pool rating).matchRows.row w.matchRows.next =
      some (newMatch ctx w.matchRows.next setup pool rating w.nextRoom) := by
  rw [row_openMatch, Table.row_insert, if_pos rfl]

/-- The row of a new match and the rank of its pool. -/
theorem createMatch_poolRank (h : createMatch ctx setup w = (.ok k, t)) :
    setup.humans ≠ [] ∧ ∃ m, t.matchRows.row k = some m ∧
      m.state.poolRank = poolTarget (setup.ratingIn w)
        (some (setup.poolRank (setup.humans.map (setup.ratingOf w)))) := by
  obtain ⟨_, _, hbots, h⟩ := bind_ok.mp h
  obtain ⟨-, rfl⟩ := refuse_ok.mp hbots
  obtain ⟨_, v, hensure, h⟩ := bind_ok.mp h
  obtain rfl := write_ok.mp hensure
  obtain ⟨ratings, _, hread, h⟩ := bind_ok.mp h
  obtain ⟨hratings, rfl⟩ := read_ok.mp hread
  have hstored : ratings = setup.humans.map (setup.ratingOf w) :=
    hratings.symm.trans (List.map_congr_left fun uid _ => by rw [ratingRow_ensureRatings]; rfl)
  obtain ⟨_, _, hempty, h⟩ := bind_ok.mp h
  obtain ⟨hne, rfl⟩ := refuse_ok.mp hempty
  obtain ⟨_, _, hpool, h⟩ := bind_ok.mp h
  obtain ⟨-, rfl⟩ := refuse_ok.mp hpool
  obtain ⟨k', _, hnext, h⟩ := bind_ok.mp h
  obtain ⟨rfl, rfl⟩ := read_ok.mp hnext
  obtain ⟨pool, _, hmixed, h⟩ := bind_ok.mp h
  obtain ⟨hbuilt, rfl⟩ := attempt_ok.mp hmixed
  obtain ⟨_, _, hadd, h⟩ := bind_ok.mp h
  obtain rfl := write_ok.mp hadd
  obtain ⟨_, _, hpoint, h⟩ := bind_ok.mp h
  obtain rfl := write_ok.mp hpoint
  obtain ⟨rfl, rfl⟩ := pure_ok.mp h
  have hrank := mixedPool_poolRank hbuilt
  rw [hstored] at hne hrank
  exact ⟨fun hnone => hne (by rw [hnone]; rfl), _,
    row_opened ctx setup pool (setup.matchRating ratings) (w.ensureRatings _), hrank⟩

theorem poolTarget_high {rating : ℚ} (h : 50 < rating) (rank : Rank) :
    poolTarget rating (some rank) = rank := if_neg h.not_ge

theorem poolTarget_low {rating : ℚ} (h : ¬ 50 < rating) (rank : Rank) :
    poolTarget rating (some rank) = .archsom := if_pos (not_lt.mp h)

/-- The average fits any roster. -/
theorem fits_averageRank (h : setup.humans ≠ []) :
    setup.Fits w (averageRank (setup.humans.map (setup.ratingOf w))) where
  low lo _ hlo := le_averageRank (by simpa using h) fun r hr => by
    obtain ⟨uid, huid, rfl⟩ := List.mem_map.mp hr
    exact position_mono (hlo uid huid)
  high hi _ hhi := averageRank_le (by simpa using h) fun r hr => by
    obtain ⟨uid, huid, rfl⟩ := List.mem_map.mp hr
    exact position_mono (hhi uid huid)

/-- The top division fits the rosters with a member of it. -/
theorem fits_archsom (h : setup.humans ≠ []) :
    setup.Fits w .archsom ↔ ∃ uid ∈ setup.humans, 3000 ≤ setup.ratingOf w uid := by
  constructor
  · intro hfits
    obtain ⟨hi, hhi, hmax⟩ := setup.humans.toFinset.exists_max_image (setup.ratingOf w)
      (by simpa using h)
    simp only [List.mem_toFinset] at hhi hmax
    exact ⟨hi, hhi, position_top.mp (hfits.high hi hhi hmax)⟩
  · rintro ⟨uid, huid, htop⟩
    exact {
      low := fun lo _ _ => position_le _
      high := fun hi _ hmax => position_top.mpr (htop.trans (hmax uid huid)) }

/-- The average goes up with the ratings. -/
theorem averageRank_mono {w' : World} (h : setup.humans ≠ [])
    (hraised : ∀ uid ∈ setup.humans, setup.ratingOf w uid ≤ setup.ratingOf w' uid) :
    (averageRank (setup.humans.map (setup.ratingOf w))).position ≤
      (averageRank (setup.humans.map (setup.ratingOf w'))).position := by
  rw [position_averageRank (by simpa using h), position_averageRank (by simpa using h),
    List.length_map, List.length_map, List.map_map, List.map_map]
  exact Nat.div_le_div_right
    (List.sum_le_sum fun uid huid => position_mono (hraised uid huid))

/-- The store of two accounts at the foot of the scale. -/
def beginners : World := .fresh (players 2) (.sample .archsom 0)

/-- A ranked duel of the two. -/
def beginnersDuel : Setup :=
  { teams := ⟨[1], [2]⟩, format := .one, rulesetId := 0, variantId := 0, reservations := [] }

/-- A custom match that asks for the easiest pool. -/
def easyCustom : Setup :=
  { teams := ⟨[1], []⟩, format := .one, rulesetId := 0, variantId := 0, reservations := [],
    ranked := false, targetMmr := some 0, targetRank := some (.division .bronze 0) }

end Created

end Soms.Somsai
