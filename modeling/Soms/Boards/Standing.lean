import Soms.Boards.Top
import Soms.Library.RowNumber

/-!
# The position on a leaderboard

`get_score_position_by_user` and `get_score_position_by_id` of `database/score.py` number all rows,
those of all mod sets, while the board shows each user once.  Their join with the maps keeps every
row, as `beatmap_id` is a foreign key.
-/

namespace Soms.Boards

open Soms.Scores (UserId ScoreId BeatmapId GameMode)

/-- `PARTITION BY beatmap_id, gamemode` -/
def part (row : TotalScoreBestScore) : BeatmapId × GameMode := (row.beatmapId, row.gamemode)

/-- The order in which the database numbers the rows and the one in which it returns them. -/
structure Database where
  window : List TotalScoreBestScore → List TotalScoreBestScore
  result : List TotalScoreBestScore → List TotalScoreBestScore
  isWindow : ∀ rows, IsWindow part (·.totalScore) rows (window rows)
  isResult : ∀ rows, (result rows).Perm rows

variable (db : Database) (users : Users) (table : BestScoreTable)

/-- The number of the first row returned that is selected, zero without one. -/
def positionOf (rows : List TotalScoreBestScore) (selected : TotalScoreBestScore → Bool) : Nat :=
  (((db.result rows).find? selected).map (rowNumber part (db.window rows))).getD 0

/-- `get_score_position_by_user` -/
def getScorePositionByUser (beatmap : BeatmapId) (user : User) (mode : GameMode)
    (type : LeaderboardType) (mods : List String) : Nat :=
  match scoreWhere users type beatmap mode mods (some user) with
  | none => 0
  | some wheres => positionOf db (table.rows.filter wheres) fun row => row.userId == user.id

/-- `get_score_position_by_id` -/
def getScorePositionById (beatmap : BeatmapId) (scoreId : ScoreId) (mode : GameMode)
    (user : Option User) (type : LeaderboardType) (mods : List String) : Nat :=
  match scoreWhere users type beatmap mode mods user with
  | none => 0
  | some wheres => positionOf db (table.rows.filter wheres) fun row => row.scoreId == scoreId

/-- The rows by falling totals, one for each user. -/
def board (rows : List TotalScoreBestScore) : List TotalScoreBestScore := firsts (·.userId) rows

/-- The place of the user on the board, counted from one. -/
def standing (rows : List TotalScoreBestScore) (uid : UserId) : Nat :=
  (board rows).findIdx (fun row => row.userId == uid) + 1

/-- The rows with a higher total. -/
def above (rows : List TotalScoreBestScore) (best : TotalScoreBestScore) :
    List TotalScoreBestScore :=
  rows.filter fun row => decide (best.totalScore < row.totalScore)

/-- The best row of its user. -/
def IsBest (rows : List TotalScoreBestScore) (best : TotalScoreBestScore) : Prop :=
  best ∈ rows ∧ ∀ row ∈ rows, row.userId = best.userId → row.totalScore ≤ best.totalScore

variable {db users table} {rows : List TotalScoreBestScore} {best row : TotalScoreBestScore}

/-! ## Rows with different totals -/

/-- The rows before one are those with a higher total. -/
theorem split_at (hfalling : rows.Pairwise fun a b => b.totalScore ≤ a.totalScore)
    (htotals : (rows.map (·.totalScore)).Nodup) (hrow : row ∈ rows) :
    ∃ after, rows = above rows row ++ row :: after := by
  obtain ⟨before, after, hsplit⟩ := List.append_of_mem hrow
  refine ⟨after, ?_⟩
  have hparts := hfalling
  rw [hsplit, List.pairwise_append, List.pairwise_cons] at hparts
  have hnodup := htotals
  rw [hsplit, List.map_append, List.nodup_append] at hnodup
  have hbefore : before.filter (fun b => decide (row.totalScore < b.totalScore)) = before := by
    refine List.filter_eq_self.mpr fun b hb => ?_
    have hle := hparts.2.2 b hb row List.mem_cons_self
    have hne := hnodup.2.2 _ (List.mem_map_of_mem hb) _ (List.mem_map_of_mem List.mem_cons_self)
    simpa using lt_of_le_of_ne hle (Ne.symm hne)
  have hafter : (row :: after).filter (fun b => decide (row.totalScore < b.totalScore)) = [] := by
    refine List.filter_eq_nil_iff.mpr fun b hb => ?_
    rcases List.mem_cons.mp hb with rfl | hb
    · simp
    · simpa using hparts.2.1.1 b hb
  have habove : above rows row = before := by
    rw [above, hsplit, List.filter_append, hbefore, hafter, List.append_nil]
  rw [habove]
  exact hsplit

/-- **The standing** is one more than the number of users with a higher total. -/
theorem standing_eq (hfalling : rows.Pairwise fun a b => b.totalScore ≤ a.totalScore)
    (htotals : (rows.map (·.totalScore)).Nodup) (hbest : IsBest rows best) :
    standing rows best.userId = userCount (above rows best) + 1 := by
  obtain ⟨after, hsplit⟩ := split_at hfalling htotals hbest.1
  have hother : best.userId ∉ (above rows best).map (·.userId) := by
    intro hmem
    obtain ⟨row, hrow, huser⟩ := List.mem_map.mp hmem
    obtain ⟨hrow, hlt⟩ := List.mem_filter.mp hrow
    exact absurd (hbest.2 row hrow huser) (Nat.not_le.mpr (by simpa using hlt))
  obtain ⟨more, hmore⟩ : ∃ more, firsts (·.userId) (above rows best ++ best :: after) =
      firsts (·.userId) (above rows best) ++ best :: more := firsts_split hother
  have hboard : board rows = firsts (·.userId) (above rows best) ++ best :: more := by
    rw [← hsplit] at hmore
    exact hmore
  have hnone :
      (firsts (·.userId) (above rows best)).findIdx (fun row => row.userId == best.userId) =
        (firsts (·.userId) (above rows best)).length := by
    refine List.findIdx_eq_length.mpr fun row hrow => ?_
    have : row.userId ≠ best.userId := fun huser =>
      hother (mem_keys_firsts.mp (huser ▸ List.mem_map_of_mem hrow))
    simpa using this
  rw [standing, hboard, List.findIdx_append, hnone, if_neg (Nat.lt_irrefl _), List.findIdx_cons]
  simp [length_firsts]

/-- The number of a row counts all rows above it. -/
theorem rowNumber_window (hparts : ∀ a ∈ rows, ∀ b ∈ rows, part a = part b)
    (htotals : (rows.map (·.totalScore)).Nodup) (hrow : row ∈ rows) :
    rowNumber part (db.window rows) row = (above rows row).length + 1 := by
  have hnumber := (db.isWindow rows).rowNumber_eq hrow (htotals.of_map _) fun b hb _ htotal =>
    List.inj_on_of_nodup_map htotals hb hrow htotal
  have hlarger : larger part (·.totalScore) rows row = (above rows row).length := by
    refine congrArg List.length (List.filter_congr fun b hb => ?_)
    simp [hparts b hb row hrow]
  rw [hnumber, hlarger]

/-! ## Positions and standings -/

/-- A row of the filtered table is of the beatmap and the mode. -/
theorem part_matching {beatmap : BeatmapId} {mode : GameMode} {type : LeaderboardType}
    {mods : List String} {user : Option User}
    (hrow : row ∈ matching users table beatmap mode type mods user) :
    part row = (beatmap, mode) := by
  unfold matching at hrow
  cases hwhere : scoreWhere users type beatmap mode mods user with
  | none => simp [hwhere] at hrow
  | some wheres =>
    rw [hwhere] at hrow
    obtain ⟨ofType, -, hwhere⟩ := Option.bind_eq_some_iff.mp hwhere
    obtain ⟨ofMods, -, hwhere⟩ := Option.bind_eq_some_iff.mp hwhere
    obtain rfl := Option.some.inj hwhere
    have hpass := (List.mem_filter.mp hrow).2
    simp only [Bool.and_eq_true, beq_iff_eq] at hpass
    exact Prod.ext hpass.1.1.1.1 hpass.1.1.1.2

theorem positionOf_of_find {selected : TotalScoreBestScore → Bool}
    (h : (db.result rows).find? selected = some row) :
    positionOf db rows selected = rowNumber part (db.window rows) row := by
  rw [positionOf, h]
  rfl

/-- The row of a score is returned for it. -/
theorem find_score (hids : (rows.map (·.scoreId)).Nodup) (hrow : row ∈ rows) :
    (db.result rows).find? (fun other => other.scoreId == row.scoreId) = some row := by
  have hperm := db.isResult rows
  cases hfind : (db.result rows).find? fun other => other.scoreId == row.scoreId with
  | none =>
    have := List.find?_eq_none.mp hfind row (hperm.mem_iff.mpr hrow)
    simp at this
  | some found =>
    have hmem := hperm.mem_iff.mp (List.mem_of_find?_eq_some hfind)
    have hid : found.scoreId = row.scoreId := by simpa using List.find?_some hfind
    rw [List.inj_on_of_nodup_map hids hmem hrow hid]

/-- The rows above are of different users exactly if there are as many users. -/
theorem nodup_above_iff : userCount (above rows best) = (above rows best).length ↔
    ((above rows best).map (·.userId)).Nodup := by
  have hcount : userCount ([] ++ above rows best) = userCount [] + (above rows best).length ↔ _ :=
    keyCount_append_eq
  simpa [userCount, keyCount] using hcount

/-- A lower row of the user has a higher number. -/
theorem above_lt (hbest : IsBest rows best) (hrow : row ∈ rows) (huser : row.userId = best.userId)
    (hne : row ≠ best) (htotals : (rows.map (·.totalScore)).Nodup) :
    (above rows best).length < (above rows row).length := by
  have hlt : row.totalScore < best.totalScore :=
    lt_of_le_of_ne (hbest.2 row hrow huser) fun h =>
      hne (List.inj_on_of_nodup_map htotals hrow hbest.1 h)
  have hsub : (above rows best).Sublist (above rows row) := by
    unfold above
    refine List.monotone_filter_right rows fun b hb => ?_
    simp only [decide_eq_true_eq] at hb ⊢
    omega
  refine lt_of_le_of_ne hsub.length_le fun hlength => ?_
  have hmem : best ∈ above rows row := List.mem_filter.mpr ⟨hbest.1, by simpa using hlt⟩
  rw [← hsub.eq_of_length hlength] at hmem
  simp [above] at hmem

theorem positionOf_iff (hfalling : rows.Pairwise fun a b => b.totalScore ≤ a.totalScore)
    (hids : (rows.map (·.scoreId)).Nodup) (htotals : (rows.map (·.totalScore)).Nodup)
    (hparts : ∀ a ∈ rows, ∀ b ∈ rows, part a = part b) (hbest : IsBest rows best) :
    (positionOf db rows (fun row => row.userId == best.userId) = standing rows best.userId ∧
        positionOf db rows (fun row => row.scoreId == best.scoreId) =
          standing rows best.userId) ↔
      ((above rows best).map (·.userId)).Nodup ∧
        (db.result rows).find? (fun row => row.userId == best.userId) = some best := by
  rw [positionOf_of_find (find_score hids hbest.1), rowNumber_window hparts htotals hbest.1,
    standing_eq hfalling htotals hbest, ← nodup_above_iff]
  constructor
  · rintro ⟨huser, hid⟩
    refine ⟨by omega, ?_⟩
    cases hfind : (db.result rows).find? fun row => row.userId == best.userId with
    | none => simp [positionOf, hfind] at huser
    | some row =>
      by_contra hne
      have hne : row ≠ best := fun h => hne (by rw [h])
      have hrow : row ∈ rows := (db.isResult rows).mem_iff.mp (List.mem_of_find?_eq_some hfind)
      have hsame : row.userId = best.userId := by simpa using List.find?_some hfind
      have hlt := above_lt hbest hrow hsame hne htotals
      rw [positionOf_of_find hfind, rowNumber_window hparts htotals hrow] at huser
      omega
  · rintro ⟨hcount, hfind⟩
    rw [positionOf_of_find hfind, rowNumber_window hparts htotals hbest.1]
    omega

/-- **The position and the leaderboard.**  In a table of different totals the position of the user
and that of the user's best score are the user's standing exactly if the rows above are of different
users and the user's best row is the first one of the user that is returned. -/
theorem position_is_standing_iff (db : Database) (users : Users) (table : BestScoreTable)
    (beatmap : BeatmapId) (user : User) (mode : GameMode) (type : LeaderboardType)
    (mods : List String) (best : TotalScoreBestScore)
    (htotals : ((matching users table beatmap mode type mods (some user)).map (·.totalScore)).Nodup)
    (hbest : IsBest (matching users table beatmap mode type mods (some user)) best)
    (huser : best.userId = user.id) :
    (getScorePositionByUser db users table beatmap user mode type mods =
        standing (matching users table beatmap mode type mods (some user)) user.id ∧
      getScorePositionById db users table beatmap best.scoreId mode (some user) type mods =
        standing (matching users table beatmap mode type mods (some user)) user.id) ↔
      ((above (matching users table beatmap mode type mods (some user)) best).map
          (·.userId)).Nodup ∧
        (db.result (matching users table beatmap mode type mods (some user))).find?
          (fun row => row.userId == user.id) = some best := by
  have hparts : ∀ a ∈ matching users table beatmap mode type mods (some user),
      ∀ b ∈ matching users table beatmap mode type mods (some user), part a = part b :=
    fun a ha b hb => (part_matching ha).trans (part_matching hb).symm
  unfold getScorePositionByUser getScorePositionById
  unfold matching at *
  cases hwhere : scoreWhere users type beatmap mode mods (some user) with
  | none =>
    rw [hwhere] at hbest
    simp [IsBest] at hbest
  | some wheres =>
    simp only [hwhere, Option.map_some, Option.getD_some] at htotals hbest hparts ⊢
    have hsub : (table.rows.filter wheres).Sublist table.rows := List.filter_sublist
    rw [← huser]
    exact positionOf_iff (table.falling.sublist hsub) (table.nodup.sublist (hsub.map _)) htotals
      hparts hbest

/-- The rows are numbered in the order of a stable sort and returned as they are stored. -/
def plainDatabase : Database where
  window := byKey (·.totalScore)
  result rows := rows
  isWindow rows := ⟨byKey_perm _ rows, (byKey_falling _ rows).imp
    fun {a b} (h : b.totalScore ≤ a.totalScore) (_ : part a = part b) => h⟩
  isResult _ := List.Perm.refl _

/-- User 8, who is no supporter. -/
def asking : User := ⟨8, false, "XX", none⟩

/-- User 8 stands between the rows of user 7. -/
def between : BestScoreTable where
  rows := [rowOf 7 1 10 [], rowOf 8 3 9 [], rowOf 7 2 8 ["HD"]]
  falling := by decide
  nodup := by decide

theorem position_is_standing_iff_between :
    getScorePositionByUser plainDatabase plainUsers between 1 asking .osu .global [] =
        standing between.rows 8 ∧
      getScorePositionById plainDatabase plainUsers between 1 3 .osu (some asking) .global [] =
        standing between.rows 8 :=
  (position_is_standing_iff plainDatabase plainUsers between 1 asking .osu .global []
    (rowOf 8 3 9 []) (by decide) ⟨by decide, by decide⟩ rfl).mpr ⟨by decide, by decide⟩

/-- User 8 stands below both rows of user 7. -/
theorem second_mod_counted : ¬ ∀ (db : Database) (users : Users) (table : BestScoreTable)
    (beatmap : BeatmapId) (user : User) (mode : GameMode) (best : TotalScoreBestScore),
    (table.rows.map (·.totalScore)).Nodup →
      IsBest (matching users table beatmap mode .global [] (some user)) best →
      best.userId = user.id →
      getScorePositionByUser db users table beatmap user mode .global [] =
        standing (matching users table beatmap mode .global [] (some user)) user.id := by
  intro hall
  have hposition := hall plainDatabase plainUsers twoMods 1 asking .osu (rowOf 8 3 8 []) (by decide)
    ⟨by decide, by decide⟩ rfl
  revert hposition
  decide

end Soms.Boards
