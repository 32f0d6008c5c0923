import Soms.Scores.ModBest

/-!
# A player deletes a score

`Score.delete` of `database/score.py` with `TotalScoreBestScore.delete` and `BestScore.delete`.  The
leaderboard row of the score is taken from the statistics whether or not it is what they count for
the map, and no other row takes its place.
-/

namespace Soms.Scores

open Txn

/-! ## Deletion -/

/-- What `TotalScoreBestScore.delete` does to the statistics. -/
def UserStatistics.debitBest (rank : Rank) (display maxCombo : Int) (st : UserStatistics) :
    UserStatistics :=
  let st := { st with
    totalScore := st.totalScore - display
    rankedScore := st.rankedScore - display }
  let st := { st with levelCurrent := calculateScoreToLevel st.totalScore }
  let st := st.changeGradeCount rank (-1)
  { st with maximumCombo := max 0 maxCombo }

/-- The highest combo of the user's scores that have a row, zero without one. -/
def State.listedCombo (s : State) (um : UserMode) : Int :=
  let listed := s.scores.toList.filter fun x =>
    decide (x.2.key.userMode = um) && (s.bestRows x.2.key).any (·.scoreId == x.1)
  ((listed.map (·.2.maxCombo)).max?).getD 0

variable (srv : Server)

/-- `TotalScoreBestScore.delete`.  The row is there when the combo is looked up. -/
def BestRow.delete (k : MapKey) (row : BestRow) (s : State) : State :=
  { s with
    stats := Function.update s.stats k.userMode <| (s.stats k.userMode).map fun st =>
      st.debitBest row.rank (s.displayOf srv.toSettings (some row)) (s.listedCombo k.userMode)
    bestRows := Function.update s.bestRows k <|
      (s.bestRows k).filter fun other => other.scoreId != row.scoreId }

/-- `BestScore.delete` -/
def PpRow.delete (k : MapKey) (s : State) : State :=
  let s := { s with ppBest := Function.update s.ppBest k none }
  { s with
    stats := Function.update s.stats k.userMode <| (s.stats k.userMode).map fun st =>
      let userPp := srv.userPp (s.ppRows k.userMode)
      { st with pp := userPp.1, hitAccuracy := userPp.2 } }

/-- The row of the score among those of its map. -/
def State.rowOf (s : State) (k : MapKey) (sid : ScoreId) : Option BestRow :=
  (s.bestRows k).find? fun row => row.scoreId == sid

/-- `Score.delete` -/
def Score.delete (sid : ScoreId) (sc : Score) (s : State) : State :=
  let s := match s.rowOf sc.key sid with
    | some row => row.delete srv sc.key s
    | none => s
  let s := if (s.ppBest sc.key).any (·.scoreId == sid) then PpRow.delete srv sc.key s else s
  { s with
    playlistBest := fun roomId uid =>
      (s.playlistBest roomId uid).filter fun row => row.scoreId != sid
    scores := s.scores.delete sid }

/-! ## What the statistics count -/

section Balance

variable (s : State)

/-- The map gives ranked score. -/
def State.isRanked (b : BeatmapId) : Bool :=
  (s.beatmaps.row b).any fun bm => srv.grants (s.effectivePolicy b bm) .rankedScore

/-- `get_user_best_score_in_beatmap` -/
def State.best (k : MapKey) : Option BestRow := srv.first (s.bestRows k)

/-- The best row of the other scores. -/
def State.nextBest (k : MapKey) (sid : ScoreId) : Option BestRow :=
  srv.first ((s.bestRows k).filter fun row => row.scoreId != sid)

/-- The sum over the best rows of the ranked maps. -/
def State.rankedTotal (um : UserMode) : Int :=
  s.beatmaps.total fun b =>
    if s.isRanked srv b then s.displayOf srv.toSettings (s.best srv ⟨um.1, b, um.2⟩) else 0

/-- The counter that the row adds to. -/
def gradeOf (row : Option BestRow) : Option Grade := row.bind (·.rank.grade)

/-- The number of ranked maps whose best row has the grade. -/
def State.gradeTotal (um : UserMode) (g : Grade) : Nat :=
  s.beatmaps.total fun b =>
    if s.isRanked srv b ∧ gradeOf (s.best srv ⟨um.1, b, um.2⟩) = some g then 1 else 0

/-- The statistics are those of the rows. -/
structure Balanced (um : UserMode) (st : UserStatistics) : Prop where
  ranked : st.rankedScore = s.rankedTotal srv um
  grades : ∀ g, st.grades g = s.gradeTotal srv um g

/-- A row is of a score of its key, and a score has at most one. -/
structure Listed : Prop where
  score : ∀ k, ∀ row ∈ s.bestRows k, ∃ sc, s.scores.row row.scoreId = some sc ∧ sc.key = k
  ids : ∀ k, ((s.bestRows k).map (·.scoreId)).Nodup

/-- After the deletion the statistics are those of the rows that are left, and the total has lost
the score. -/
def DeletedWell (sid : ScoreId) (sc : Score) (st : UserStatistics) : Prop :=
  ∃ st', (sc.delete srv sid s).stats sc.key.userMode = some st' ∧
    Balanced srv (sc.delete srv sid s) sc.key.userMode st' ∧
    st'.totalScore = st.totalScore - srv.displayScore sc

/-- No map is counted for the rank. -/
def Uncounted (st : UserStatistics) (rank : Rank) : Prop := ∀ g ∈ rank.grade, st.grades g = 0

/-- The score shows nothing or has a row.  A row on a map without ranked score shows nothing and has
a rank that is not counted.  Where the row is the best one of a ranked map, the next best counts for
nothing.  Otherwise the best row shows as much more than the next best as the row, with the
same grade and a row that is not counted, or with the row's grade and a next best without one. -/
def LosesItsShare (sid : ScoreId) (sc : Score) (st : UserStatistics) : Prop :=
  let best := s.best srv sc.key
  let next := s.nextBest srv sc.key sid
  match s.rowOf sc.key sid with
  | none => srv.displayScore sc = 0
  | some row =>
    if s.isRanked srv sc.beatmapId then
      if best = some row then s.displayOf srv.toSettings next = 0 ∧ gradeOf next = none
      else s.displayOf srv.toSettings best =
          srv.displayScore sc + s.displayOf srv.toSettings next ∧
        (gradeOf next = gradeOf best ∧ Uncounted st row.rank ∨
          gradeOf next = none ∧ gradeOf best = row.rank.grade)
    else srv.displayScore sc = 0 ∧ Uncounted st row.rank

instance (sid : ScoreId) (sc : Score) (st : UserStatistics) :
    Decidable (LosesItsShare srv s sid sc st) := by
  unfold LosesItsShare Uncounted
  dsimp only
  split <;> infer_instance

end Balance

/-! ## The statistics after a deletion -/

namespace UserStatistics

/-- The totals and the grades. -/
def ledger (st : UserStatistics) : Int × Int × (Grade → Nat) :=
  (st.totalScore, st.rankedScore, st.grades)

variable (st : UserStatistics)

theorem grades_changeGradeCount (rank : Rank) (g : Grade) :
    (st.changeGradeCount rank (-1)).grades g =
      if rank.grade = some g then st.grades g - 1 else st.grades g := by
  unfold changeGradeCount
  cases hrank : rank.grade with
  | none => simp
  | some g' =>
    by_cases hg : g' = g
    · subst hg
      simp only [Function.update_self, if_true]
      omega
    · simp [hg, Function.update_of_ne (Ne.symm hg)]

theorem ledger_changeGradeCount (rank : Rank) (delta : Int) :
    (st.changeGradeCount rank delta).ledger =
      (st.totalScore, st.rankedScore, (st.changeGradeCount rank delta).grades) := by
  unfold changeGradeCount
  split <;> rfl

theorem grades_congr {st' : UserStatistics} (h : st'.grades = st.grades) (rank : Rank)
    (delta : Int) :
    (st'.changeGradeCount rank delta).grades = (st.changeGradeCount rank delta).grades := by
  unfold changeGradeCount
  split <;> simp [h]

theorem ledger_debitBest (rank : Rank) (display maxCombo : Int) :
    (st.debitBest rank display maxCombo).ledger =
      (st.totalScore - display, st.rankedScore - display,
        (st.changeGradeCount rank (-1)).grades) := by
  have hcombo : ∀ (u : UserStatistics) (n : Int),
      ({ u with maximumCombo := n }).ledger = u.ledger := fun _ _ => rfl
  unfold debitBest
  rw [hcombo, ledger_changeGradeCount, grades_congr]
  rfl

end UserStatistics

section Deleted

variable {srv} {s : State} {sid : ScoreId} {sc : Score} {st : UserStatistics}

theorem rowOf_some {k : MapKey} {row : BestRow} (h : s.rowOf k sid = some row) :
    row ∈ s.bestRows k ∧ row.scoreId = sid :=
  ⟨List.mem_of_find?_eq_some h, by simpa using List.find?_some h⟩

theorem rows_of_rowOf_none {k : MapKey} (h : s.rowOf k sid = none) :
    ((s.bestRows k).filter fun row => row.scoreId != sid) = s.bestRows k :=
  List.filter_eq_self.mpr fun row hmem => by simpa using List.find?_eq_none.mp h row hmem

/-- The row shows what its score does. -/
theorem displayOf_row (hsc : s.scores.row sid = some sc) {row : BestRow}
    (hrow : row.scoreId = sid) :
    s.displayOf srv.toSettings (some row) = srv.displayScore sc := by
  simp [State.displayOf, hrow, hsc]

/-- What a deletion does to the totals and the grades. -/
theorem ledger_delete (srv : Server) (hsc : s.scores.row sid = some sc)
    (hst : s.stats sc.key.userMode = some st) :
    ∃ st', (sc.delete srv sid s).stats sc.key.userMode = some st' ∧
      st'.ledger = match s.rowOf sc.key sid with
        | some row => (st.totalScore - srv.displayScore sc, st.rankedScore - srv.displayScore sc,
            (st.changeGradeCount row.rank (-1)).grades)
        | none => st.ledger := by
  have hpp : ∀ (u : State) (st₀ : UserStatistics), u.stats sc.key.userMode = some st₀ →
      ∃ st', (if (u.ppBest sc.key).any (·.scoreId == sid) then PpRow.delete srv sc.key u
        else u).stats sc.key.userMode = some st' ∧ st'.ledger = st₀.ledger := by
    intro u st₀ hu
    split
    · obtain ⟨p, q, hstats⟩ : ∃ p q, (PpRow.delete srv sc.key u).stats sc.key.userMode =
          some { st₀ with pp := p, hitAccuracy := q } := by
        simp [PpRow.delete, hu]
      exact ⟨_, hstats, rfl⟩
    · exact ⟨st₀, hu, rfl⟩
  unfold Score.delete
  cases hrow : s.rowOf sc.key sid with
  | none => exact hpp s st hst
  | some row =>
    have hpaid : (row.delete srv sc.key s).stats sc.key.userMode =
        some (st.debitBest row.rank (srv.displayScore sc) (s.listedCombo sc.key.userMode)) := by
      simp [BestRow.delete, hst, displayOf_row hsc (rowOf_some hrow).2]
    obtain ⟨st', hst', hledger⟩ := hpp _ _ hpaid
    exact ⟨st', hst', hledger.trans (st.ledger_debitBest ..)⟩

/-- What a deletion does to the rows. -/
theorem bestRows_delete : (sc.delete srv sid s).bestRows = Function.update s.bestRows sc.key
    ((s.bestRows sc.key).filter fun row => row.scoreId != sid) := by
  have hpp : ∀ u : State, (if (u.ppBest sc.key).any (·.scoreId == sid) then
      PpRow.delete srv sc.key u else u).bestRows = u.bestRows := by
    intro u
    split <;> rfl
  unfold Score.delete
  cases hrow : s.rowOf sc.key sid with
  | none =>
    rw [rows_of_rowOf_none hrow, Function.update_eq_self]
    exact hpp s
  | some row =>
    obtain ⟨-, rfl⟩ := rowOf_some hrow
    exact hpp (row.delete srv sc.key s)

theorem scores_delete : (sc.delete srv sid s).scores = s.scores.delete sid := by
  have hpp : ∀ u : State, (if (u.ppBest sc.key).any (·.scoreId == sid) then
      PpRow.delete srv sc.key u else u).scores = u.scores := by
    intro u
    split <;> rfl
  unfold Score.delete
  cases s.rowOf sc.key sid with
  | none => exact congrArg (Table.delete · sid) (hpp s)
  | some row => exact congrArg (Table.delete · sid) (hpp (row.delete srv sc.key s))

/-- A deletion leaves the maps and their policies. -/
theorem maps_delete : (sc.delete srv sid s).beatmaps = s.beatmaps ∧
    ∀ b, (sc.delete srv sid s).isRanked srv b = s.isRanked srv b := by
  have hpp : ∀ u : State, (if (u.ppBest sc.key).any (·.scoreId == sid) then
      PpRow.delete srv sc.key u else u).beatmaps = u.beatmaps ∧
      ∀ b, State.isRanked srv (if (u.ppBest sc.key).any (·.scoreId == sid) then
        PpRow.delete srv sc.key u else u) b = u.isRanked srv b := by
    intro u
    split <;> exact ⟨rfl, fun _ => rfl⟩
  unfold Score.delete
  cases s.rowOf sc.key sid with
  | none => exact hpp s
  | some row => exact hpp (row.delete srv sc.key s)

/-- The rows that are left are of other scores. -/
theorem Listed.ne_of_mem_delete (hlisted : Listed s) (hsc : s.scores.row sid = some sc) {k : MapKey}
    {row : BestRow} (hrow : row ∈ (sc.delete srv sid s).bestRows k) : row.scoreId ≠ sid := by
  rw [bestRows_delete] at hrow
  by_cases hk : k = sc.key
  · subst hk
    rw [Function.update_self] at hrow
    simpa using (List.mem_filter.mp hrow).2
  · rw [Function.update_of_ne hk] at hrow
    rintro rfl
    obtain ⟨sc', hsc', rfl⟩ := hlisted.score k row hrow
    exact hk (by rw [Option.some.inj (hsc.symm.trans hsc')])

theorem Listed.delete (hlisted : Listed s) (hsc : s.scores.row sid = some sc) :
    Listed (sc.delete srv sid s) where
  score k row hrow := by
    have hne := hlisted.ne_of_mem_delete hsc hrow
    rw [scores_delete, Table.row_delete, if_neg hne]
    refine hlisted.score k row ?_
    rw [bestRows_delete] at hrow
    by_cases hk : k = sc.key
    · subst hk
      rw [Function.update_self] at hrow
      exact (List.mem_filter.mp hrow).1
    · rwa [Function.update_of_ne hk] at hrow
  ids k := by
    rw [bestRows_delete]
    by_cases hk : k = sc.key
    · subst hk
      rw [Function.update_self]
      exact (hlisted.ids sc.key).sublist (List.filter_sublist.map _)
    · rw [Function.update_of_ne hk]
      exact hlisted.ids k

/-- The best rows that are left show what they did. -/
theorem Listed.displayOf_best (hlisted : Listed s) (srv : Server)
    (hsc : s.scores.row sid = some sc) (k : MapKey) :
    (sc.delete srv sid s).displayOf srv.toSettings ((sc.delete srv sid s).best srv k) =
      s.displayOf srv.toSettings ((sc.delete srv sid s).best srv k) := by
  cases hbest : (sc.delete srv sid s).best srv k with
  | none => rfl
  | some row =>
    have hne := hlisted.ne_of_mem_delete hsc (srv.first_some _ _ hbest).1
    simp [State.displayOf, scores_delete, hne]

/-! ## The sums after a deletion -/

theorem best_delete : (sc.delete srv sid s).best srv sc.key = s.nextBest srv sc.key sid := by
  rw [State.best, bestRows_delete, Function.update_self]
  rfl

theorem best_delete_of_ne {b : BeatmapId} (hb : b ≠ sc.beatmapId) :
    (sc.delete srv sid s).best srv ⟨sc.userId, b, sc.mode⟩ =
      s.best srv ⟨sc.userId, b, sc.mode⟩ := by
  have hk : (⟨sc.userId, b, sc.mode⟩ : MapKey) ≠ sc.key :=
    fun hk => hb (congrArg MapKey.beatmapId hk)
  rw [State.best, bestRows_delete, Function.update_of_ne hk]
  rfl

/-- Sums over the ranked maps that differ at one map. -/
theorem total_ranked {M : Type} [AddCommMonoid M] (srv : Server) (s : State) (b : BeatmapId)
    (f g : BeatmapId → M) (h : ∀ b', b' ≠ b → f b' = g b') :
    (s.beatmaps.total fun b' => if s.isRanked srv b' then f b' else 0) +
        (if s.isRanked srv b then g b else 0) =
      (s.beatmaps.total fun b' => if s.isRanked srv b' then g b' else 0) +
        if s.isRanked srv b then f b else 0 := by
  by_cases hb : b ∈ s.beatmaps.ids
  · exact Catalog.total_change (f := fun b' => if s.isRanked srv b' then f b' else 0)
      (g := fun b' => if s.isRanked srv b' then g b' else 0) hb fun b' hb' => by rw [h b' hb']
  · have hno : s.isRanked srv b = false := by
      have hrow : s.beatmaps.row b = none :=
        Option.not_isSome_iff_eq_none.mp ((s.beatmaps.mem_ids b).not.mp hb)
      simp [State.isRanked, hrow]
    rw [hno]
    simp only [Bool.false_eq_true, if_false, add_zero]
    exact Catalog.total_congr fun b' hb' => by rw [h b' fun heq => hb (heq ▸ hb')]

/-- The sum loses what the map showed and gains what its next best row shows. -/
theorem rankedTotal_delete (srv : Server) (hlisted : Listed s) (hsc : s.scores.row sid = some sc) :
    (sc.delete srv sid s).rankedTotal srv sc.key.userMode +
        (if s.isRanked srv sc.beatmapId then
          s.displayOf srv.toSettings (s.best srv sc.key) else 0) =
      s.rankedTotal srv sc.key.userMode +
        if s.isRanked srv sc.beatmapId then
          s.displayOf srv.toSettings (s.nextBest srv sc.key sid) else 0 := by
  have hdisplay := hlisted.displayOf_best srv hsc
  have hsum := total_ranked srv s sc.beatmapId
    (fun b => (sc.delete srv sid s).displayOf srv.toSettings
      ((sc.delete srv sid s).best srv ⟨sc.userId, b, sc.mode⟩))
    (fun b => s.displayOf srv.toSettings (s.best srv ⟨sc.userId, b, sc.mode⟩))
    fun b hb => by rw [hdisplay, best_delete_of_ne hb]
  have hnext := hdisplay sc.key
  rw [best_delete] at hnext
  simp only [State.rankedTotal, maps_delete]
  exact hsum.trans (by rw [← hnext, ← best_delete]; rfl)

/-- So do the counters. -/
theorem gradeTotal_delete (srv : Server) (s : State) (sid : ScoreId) (sc : Score) (g : Grade) :
    (sc.delete srv sid s).gradeTotal srv sc.key.userMode g +
        (if s.isRanked srv sc.beatmapId ∧ gradeOf (s.best srv sc.key) = some g then 1 else 0) =
      s.gradeTotal srv sc.key.userMode g +
        if s.isRanked srv sc.beatmapId ∧ gradeOf (s.nextBest srv sc.key sid) = some g then 1
        else 0 := by
  have hsum := total_ranked srv s sc.beatmapId
    (fun b => if gradeOf ((sc.delete srv sid s).best srv ⟨sc.userId, b, sc.mode⟩) = some g
      then 1 else 0)
    (fun b => if gradeOf (s.best srv ⟨sc.userId, b, sc.mode⟩) = some g then 1 else 0)
    fun b hb => by rw [best_delete_of_ne hb]
  simp only [State.gradeTotal, maps_delete, ite_and]
  exact hsum.trans (by rw [← best_delete]; rfl)

/-- The best row of a ranked map is counted. -/
theorem gradeTotal_pos (hranked : s.isRanked srv sc.beatmapId = true) {g : Grade}
    (hg : gradeOf (s.best srv sc.key) = some g) :
    0 < s.gradeTotal srv sc.key.userMode g := by
  obtain ⟨bm, hbm, -⟩ := Option.any_eq_true _ _ |>.mp hranked
  refine Nat.lt_of_lt_of_le Nat.one_pos ?_
  have hle := Catalog.le_total (Catalog.mem_of_row hbm) fun b =>
    if s.isRanked srv b ∧ gradeOf (s.best srv ⟨sc.userId, b, sc.mode⟩) = some g then 1 else 0
  exact (if_pos ⟨hranked, hg⟩).ge.trans hle

end Deleted

/-- One map goes from one grade to another, and one rank is taken from the counters. -/
theorem grades_iff (before after : Grade → Nat) (best next row : Option Grade)
    (h : ∀ g, after g + (if best = some g then 1 else 0) =
      before g + if next = some g then 1 else 0) :
    (∀ g, (if row = some g then before g - 1 else before g) = after g) ↔
      next = best ∧ (∀ g ∈ row, before g = 0) ∨ next = none ∧ best = row := by
  constructor
  · intro hgrades
    by_cases hsame : next = best
    · refine .inl ⟨hsame, fun g hg => ?_⟩
      have hg := Option.mem_def.mp hg
      have htotal := h g
      have hthis := hgrades g
      rw [hsame] at htotal
      rw [if_pos hg] at hthis
      omega
    · refine .inr ?_
      have hnone : next = none := by
        refine Option.eq_none_iff_forall_ne_some.mpr fun g hg => ?_
        have htotal := h g
        have hthis := hgrades g
        rw [if_pos hg, if_neg fun hbest => hsame (hg.trans hbest.symm)] at htotal
        split at hthis <;> omega
      refine ⟨hnone, ?_⟩
      cases hbest : best with
      | none => exact absurd (hnone.trans hbest.symm) hsame
      | some g =>
        have htotal := h g
        have hthis := hgrades g
        rw [if_pos hbest, hnone, if_neg (by simp)] at htotal
        by_cases hrow : row = some g
        · exact hrow.symm
        · rw [if_neg hrow] at hthis
          omega
  · rintro (⟨rfl, hnone⟩ | ⟨rfl, rfl⟩) g
    · have htotal := h g
      split
      · next hrow =>
        have := hnone g hrow
        omega
      · omega
    · have htotal := h g
      by_cases hg : best = some g
      · simp only [hg, if_true, reduceCtorEq, if_false] at htotal ⊢
        omega
      · simp only [hg, if_false, reduceCtorEq] at htotal ⊢
        omega

section Balance

variable {srv} {s : State} {sid : ScoreId} {sc : Score} {st : UserStatistics}

/-- What a deletion with a row keeps. -/
theorem balanced_delete_iff (hlisted : Listed s) (hsc : s.scores.row sid = some sc)
    (hbalanced : Balanced srv s sc.key.userMode st) {row : BestRow} {st' : UserStatistics}
    (hledger : st'.ledger = (st.totalScore - srv.displayScore sc,
      st.rankedScore - srv.displayScore sc, (st.changeGradeCount row.rank (-1)).grades)) :
    Balanced srv (sc.delete srv sid s) sc.key.userMode st' ↔
      (if s.isRanked srv sc.beatmapId then s.displayOf srv.toSettings (s.best srv sc.key) else 0) =
          srv.displayScore sc + (if s.isRanked srv sc.beatmapId then
            s.displayOf srv.toSettings (s.nextBest srv sc.key sid) else 0) ∧
        ((if s.isRanked srv sc.beatmapId then gradeOf (s.nextBest srv sc.key sid) else none) =
            (if s.isRanked srv sc.beatmapId then gradeOf (s.best srv sc.key) else none) ∧
              Uncounted st row.rank ∨
          (if s.isRanked srv sc.beatmapId then gradeOf (s.nextBest srv sc.key sid) else none) =
              none ∧
            (if s.isRanked srv sc.beatmapId then gradeOf (s.best srv sc.key) else none) =
              row.rank.grade) := by
  obtain ⟨-, hledger⟩ := Prod.mk.inj hledger
  obtain ⟨hranked, hgrades⟩ := Prod.mk.inj hledger
  have hsum := rankedTotal_delete srv hlisted hsc
  have hcount := grades_iff st.grades ((sc.delete srv sid s).gradeTotal srv sc.key.userMode)
    (if s.isRanked srv sc.beatmapId then gradeOf (s.best srv sc.key) else none)
    (if s.isRanked srv sc.beatmapId then gradeOf (s.nextBest srv sc.key sid) else none)
    row.rank.grade fun g => by
      have hthis := gradeTotal_delete srv s sid sc g
      rw [hbalanced.grades g]
      cases hmap : s.isRanked srv sc.beatmapId <;> simpa [hmap] using hthis
  rw [Uncounted, ← hcount]
  constructor
  · rintro ⟨hnow, hnowGrades⟩
    refine ⟨?_, fun g => ?_⟩
    · rw [hranked, hbalanced.ranked] at hnow
      omega
    · rw [← hnowGrades g, hgrades, UserStatistics.grades_changeGradeCount]
  · rintro ⟨hnow, hnowGrades⟩
    refine ⟨?_, fun g => ?_⟩
    · rw [hranked, hbalanced.ranked]
      omega
    · rw [← hnowGrades g, hgrades, UserStatistics.grades_changeGradeCount]

end Balance

/-! ## Runs -/

/-- A score is placed under its key. -/
theorem placement_key {srv : Server} {s : State} {sid : ScoreId} {k : MapKey} {new : BestRow}
    (h : s.placement srv sid = some (k, new)) :
    ∃ sc, s.scores.row sid = some sc ∧ sc.key = k ∧ new.scoreId = sid := by
  obtain ⟨sc, hsc, h⟩ := Option.bind_eq_some_iff.mp h
  obtain ⟨bm, -, h⟩ := Option.bind_eq_some_iff.mp h
  split at h
  · obtain ⟨rfl, rfl⟩ := Prod.mk.inj (Option.some.inj h)
    exact ⟨sc, hsc, rfl, rfl⟩
  · simp at h

/-- A score stays one of its key. -/
theorem Step.key {srv : Deployment} {s t : State} {e : Event} (h : Step srv s e t) {sid : ScoreId}
    {k : MapKey} (hkey : ∃ sc, s.scores.row sid = some sc ∧ sc.key = k) :
    ∃ sc, t.scores.row sid = some sc ∧ sc.key = k := by
  obtain ⟨sc, hsc, rfl⟩ := hkey
  obtain ⟨sc', hsc', hresult⟩ := Option.map_eq_some_iff.mp (h.plays.result hsc)
  refine ⟨sc', hsc', ?_⟩
  show sc'.result.key = sc.result.key
  rw [hresult]

/-- **The rows of a run** are of scores of their key, and a score has at most one. -/
theorem Runs.listed {srv : Deployment} {P : State → Event → Prop} {h : List (Event × State)}
    {s : State} (hrun : Runs srv P h s) : Listed s := by
  have hinv : Sourced srv.toServer h s ∧ ∀ k, ∀ play ∈ placed srv.toServer k h,
      ∃ sc, s.scores.row play.scoreId = some sc ∧ sc.key = k := by
    induction hrun with
    | refl =>
      exact ⟨⟨fun _ => ⟨List.nodup_nil, by simp [State.empty]⟩, fun _ _ h => by simp [placed] at h⟩,
        fun _ _ h => by simp [placed] at h⟩
    | @tail past s t e hrun _ hstep ih =>
      have hend := hrun.endState_eq
      refine ⟨ih.1.step hend hstep, fun k play hplay => ?_⟩
      by_cases hother : ∀ calculated sid, e ≠ .finalize calculated sid
      · have hkeeps : (t.bestRows k = [] ∧ placed srv.toServer k ((e, t) :: past) = []) ∨
            t.bestRows k = s.bestRows k ∧
              placed srv.toServer k ((e, t) :: past) = placed srv.toServer k past :=
          placed_keeps (hstep.derived hother) hother k
        rcases hkeeps with ⟨-, hplaced⟩ | ⟨-, hplaced⟩
        · simp [hplaced] at hplay
        · exact hstep.key (ih.2 k play (hplaced ▸ hplay))
      · push Not at hother
        obtain ⟨calculated, sid, rfl⟩ := hother
        rcases finalize_cases hend hstep k with
          ⟨-, hplaced, -⟩ | ⟨sc, new, -, hplace, -, -, hplaced⟩
        · exact hstep.key (ih.2 k play (hplaced ▸ hplay))
        · rw [hplaced] at hplay
          rcases List.mem_cons.mp hplay with rfl | hplay
          · obtain ⟨sc, hsc, hkey, hid⟩ := placement_key hplace
            exact hstep.key ⟨sc, hid ▸ hsc, hkey⟩
          · exact hstep.key (ih.2 k play hplay)
  exact ⟨fun k row hrow => hinv.2 k row ((hinv.1.rows k).played row hrow),
    fun k => (hinv.1.rows k).ids⟩

/-! ## Worked deletions -/

/-- The state after some plays of user 7. -/
def playedBy (infos : List SubmissionInfo) : State :=
  endState State.empty (historyOf (State.after plainServer) State.empty (soloPlays infos))

theorem balanced_of {srv : Server} {s : State} {um : UserMode} {st : UserStatistics}
    (hst : s.stats um = some st)
    (hranked : (s.stats um).map (·.rankedScore) = some (s.rankedTotal srv um))
    (hgrades : ∀ g, (s.stats um).map (·.grades g) = some (s.gradeTotal srv um g)) :
    Balanced srv s um st := by
  rw [hst] at hranked
  refine ⟨Option.some.inj hranked, fun g => ?_⟩
  have hg := hgrades g
  rw [hst] at hg
  exact Option.some.inj hg

/-! ## Deletions that keep the balance -/

section Balance

variable {srv : Server} {s : State} {sid : ScoreId} {sc : Score} {st : UserStatistics}

/-- **The deletion of a score.**  From statistics that are those of the rows, the statistics stay
those of the rows and the total loses the score exactly if the score's row is what the map counts
for and nothing else is. -/
theorem delete_balanced_iff (hlisted : Listed s) (hsc : s.scores.row sid = some sc)
    (hst : s.stats sc.key.userMode = some st) (hbalanced : Balanced srv s sc.key.userMode st) :
    DeletedWell srv s sid sc st ↔ LosesItsShare srv s sid sc st := by
  obtain ⟨st', hst', hledger⟩ := ledger_delete srv hsc hst
  have hwell : DeletedWell srv s sid sc st ↔
      Balanced srv (sc.delete srv sid s) sc.key.userMode st' ∧
        st'.totalScore = st.totalScore - srv.displayScore sc := by
    constructor
    · rintro ⟨st'', hst'', hrest⟩
      rwa [Option.some.inj (hst'.symm.trans hst'')]
    · exact fun hrest => ⟨st', hst', hrest⟩
  rw [hwell, LosesItsShare]
  cases hrow : s.rowOf sc.key sid with
  | none =>
    rw [hrow] at hledger
    obtain ⟨htotal, hledger⟩ := Prod.mk.inj hledger
    obtain ⟨hranked, hgrades⟩ := Prod.mk.inj hledger
    have hsame : s.nextBest srv sc.key sid = s.best srv sc.key :=
      congrArg srv.first (rows_of_rowOf_none hrow)
    have hkept : Balanced srv (sc.delete srv sid s) sc.key.userMode st' := by
      refine ⟨?_, fun g => ?_⟩
      · have hsum := rankedTotal_delete srv hlisted hsc
        rw [hsame] at hsum
        rw [hranked, hbalanced.ranked]
        exact (add_right_cancel hsum).symm
      · have hsum := gradeTotal_delete srv s sid sc g
        rw [hsame] at hsum
        rw [hgrades, hbalanced.grades]
        exact (add_right_cancel hsum).symm
    rw [and_iff_right hkept, htotal]
    omega
  | some row =>
    rw [hrow] at hledger
    rw [balanced_delete_iff hlisted hsc hbalanced hledger,
      and_iff_left (Prod.mk.inj hledger).1]
    cases hranked : s.isRanked srv sc.beatmapId with
    | false =>
      simp only [Bool.false_eq_true, if_false, add_zero, true_and]
      refine and_congr eq_comm ⟨?_, Or.inl⟩
      rintro (hnone | hgrade)
      · exact hnone
      · exact fun g hg => by simp [← hgrade] at hg
    | true =>
      simp only [if_true]
      by_cases hbest : s.best srv sc.key = some row
      · rw [if_pos hbest, hbest, displayOf_row hsc (rowOf_some hrow).2]
        refine and_congr (by omega) ⟨?_, fun hnone => .inr ⟨hnone, rfl⟩⟩
        rintro (⟨hgrade, huncounted⟩ | ⟨hnone, -⟩)
        · rw [hgrade]
          refine Option.eq_none_iff_forall_ne_some.mpr fun g hg => ?_
          have hpos := gradeTotal_pos hranked (hbest ▸ hg)
          rw [← hbalanced.grades, huncounted g hg] at hpos
          exact Nat.lt_irrefl 0 hpos
        · exact hnone
      · rw [if_neg hbest]

end Balance

/-- The only score of a ranked map. -/
theorem delete_balanced_iff_only : ∃ sc st,
    (playedBy [playOf 2000 []]).scores.row 1 = some sc ∧ sc.totalScore = 2000 ∧
      (playedBy [playOf 2000 []]).stats (7, .osu) = some st ∧
      DeletedWell plainServer.toServer (playedBy [playOf 2000 []]) 1 sc st := by
  have hlisted : Listed (playedBy [playOf 2000 []]) :=
    Runs.listed (Runs.of_accepted (P := fun _ _ => True) (soloPlays [playOf 2000 []])
      (by decide +kernel))
  have hsc := Option.some_get (x := (playedBy [playOf 2000 []]).scores.row 1) (by decide +kernel)
  have hst := Option.some_get (x := (playedBy [playOf 2000 []]).stats (7, .osu)) (by decide +kernel)
  exact ⟨_, _, hsc.symm, by decide +kernel, hst.symm,
    (delete_balanced_iff hlisted hsc.symm hst.symm
      (balanced_of hst.symm (by decide +kernel) fun g => by cases g <;> decide +kernel)).mpr
      (by decide +kernel)⟩

/-- The deletion of a score with HD that is worse than the one without mods. -/
theorem mod_best_debited : ¬ ∀ (srv : Deployment) (h : List (Event × State)) (s : State)
    (sid : ScoreId) (sc : Score) (st : UserStatistics), Runs srv (fun _ _ => True) h s →
    s.scores.row sid = some sc → s.stats sc.key.userMode = some st →
    Balanced srv.toServer s sc.key.userMode st → DeletedWell srv.toServer s sid sc st := by
  intro hall
  have hsc := Option.some_get (x := (playedBy [playOf 1500 ["HD"], playOf 2000 []]).scores.row 2)
    (by decide +kernel)
  have hst := Option.some_get (x := (playedBy [playOf 1500 ["HD"], playOf 2000 []]).stats (7, .osu))
    (by decide +kernel)
  obtain ⟨st', hst', hbalanced, -⟩ := hall plainServer _ _ 2 _ _
    (Runs.of_accepted (soloPlays [playOf 1500 ["HD"], playOf 2000 []]) (by decide +kernel)) hsc.symm
    hst.symm (balanced_of hst.symm (by decide +kernel) fun g => by cases g <;> decide +kernel)
  have hranked := hbalanced.ranked
  have hshown := congrArg (Option.map UserStatistics.rankedScore) hst'
  rw [Option.map_some, hranked] at hshown
  revert hshown
  decide +kernel

end Soms.Scores
