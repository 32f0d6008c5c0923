import Soms.Scores.Accounting

/-!
# Reconciliation after a change of policy

`service/beatmap_ranking_reconciliation_service.py`: which derived rows a
difficulty loses when a policy stops granting a feature, and how the statistics
follow.
-/

namespace Soms.Scores

/-- `ScorePolicyTransition` -/
structure Transition where
  beatmapId : BeatmapId
  disableLeaderboard : Bool
  disablePp : Bool
  disableRankedScore : Bool
  resetRankedScoreEpoch : Bool := false
  deriving DecidableEq, Repr

namespace Transition

/-- The leaderboard rows of the difficulty go. -/
def dropsRows (t : Transition) : Bool := t.disableLeaderboard || t.resetRankedScoreEpoch

/-- The scores on the difficulty lose their eligibility for the feature. -/
def clears (t : Transition) : Feature → Bool
  | .leaderboard => t.dropsRows
  | .pp => t.disablePp
  | .rankedScore => t.dropsRows || t.disableRankedScore

end Transition

/-- What `plan_score_policy_transitions` decides for one difficulty. -/
def Settings.transition (settings : Settings) (before after : EffectivePolicy) (b : BeatmapId) :
    Transition :=
  let stops f := settings.grants before f && !settings.grants after f
  { beatmapId := b
    disableLeaderboard := stops .leaderboard
    disablePp := stops .pp
    disableRankedScore := stops .rankedScore
    resetRankedScoreEpoch :=
      !settings.grants before .rankedScore && settings.grants after .rankedScore }

/-- `plan_score_policy_transitions`: the difficulties for which something has to
be done. -/
def Settings.planTransitions (settings : Settings) (before after : BeatmapId → EffectivePolicy)
    (ids : List BeatmapId) : List Transition :=
  (ids.map fun b => settings.transition (before b) (after b) b).filter fun t =>
    t.dropsRows || t.disablePp || t.disableRankedScore

/-- The condition holds of the transition of the difficulty. -/
def marked (ts : List Transition) (p : Transition → Bool) (b : BeatmapId) : Bool :=
  ts.any fun t => t.beatmapId == b && p t

/-- `_global_best_rows` of one key: the highest total, the oldest score of equal
totals. -/
def globalBestRow (rows : List BestRow) : Option BestRow :=
  rows.foldl
    (fun best row =>
      match best with
      | none => some row
      | some current =>
        if current.totalScore < row.totalScore ∨
            row.totalScore = current.totalScore ∧ row.scoreId < current.scoreId then some row
        else some current)
    none

/-- The scores after the flags of the marked difficulties are cleared. -/
def Score.retire (ts : List Transition) (sc : Score) : Score :=
  { sc with
    leaderboardEligible :=
      sc.leaderboardEligible && !marked ts (·.clears .leaderboard) sc.beatmapId
    ranked := sc.ranked && !marked ts (·.clears .pp) sc.beatmapId
    rankedScoreEligible :=
      sc.rankedScoreEligible && !marked ts (·.clears .rankedScore) sc.beatmapId
    pp := if marked ts (·.clears .pp) sc.beatmapId then 0 else sc.pp }

variable (srv : Server)

/-- One contribution of `_retire_ranked_score_contributions`. -/
def retireContribution (s : State) (um : UserMode) (st : UserStatistics) (b : BeatmapId) :
    UserStatistics :=
  match globalBestRow (s.bestRows ⟨um.1, b, um.2⟩) with
  | some row =>
    { st with rankedScore := max 0 (st.rankedScore - s.displayOf srv.toSettings (some row)) }
      |>.changeGradeCount row.rank (-1)
  | none => st

/-- `_retire_ranked_score_contributions` for one user and mode. -/
def retireRankedScore (ts : List Transition) (s : State) (um : UserMode) (st : UserStatistics) :
    UserStatistics :=
  (((ts.filter (·.disableRankedScore)).map (·.beatmapId)).dedup).foldl
    (retireContribution srv s um) st

/-- `_repair_maximum_combo`: unless there are scores without a snapshot, the combo
is that of the scores which still count. -/
def repairMaximumCombo (scores : Table Score) (um : UserMode) (st : UserStatistics) :
    UserStatistics :=
  let own := (scores.toList.map (·.2)).filter fun sc => decide (sc.key.userMode = um)
  let rebuilt := ((own.filter fun sc =>
    sc.passed && sc.rankedScoreEligible && sc.rankingEligibilitySnapshotted).map
      (·.maxCombo)).max?.getD 0
  let legacy := own.any fun sc => !sc.rankingEligibilitySnapshotted
  { st with maximumCombo := if legacy then max st.maximumCombo rebuilt else rebuilt }

/-- `reconcile_disabled_score_features` -/
def reconcile (ts : List Transition) (s : State) : State :=
  let scores := s.scores.map (·.retire ts)
  let ppBest : MapKey → Option PpRow := fun k =>
    if marked ts (·.disablePp) k.beatmapId then none else s.ppBest k
  let hasRows (p : Transition → Bool) (um : UserMode) : Bool :=
    ts.any fun t => p t && !(s.bestRows ⟨um.1, t.beatmapId, um.2⟩).isEmpty
  let hasPpRows (um : UserMode) : Bool :=
    ts.any fun t => t.disablePp && (s.ppBest ⟨um.1, t.beatmapId, um.2⟩).isSome
  { s with
    scores
    ppBest
    bestRows := fun k => if marked ts (·.dropsRows) k.beatmapId then [] else s.bestRows k
    stats := fun um => (s.stats um).map fun st =>
      let st := retireRankedScore srv ts s um st
      let st :=
        if hasRows (fun t => t.dropsRows || t.disableRankedScore) um then
          repairMaximumCombo scores um st
        else st
      if hasPpRows um then
        let userPp := srv.userPp fun b => ppBest ⟨um.1, b, um.2⟩
        { st with pp := userPp.1, hitAccuracy := userPp.2 }
      else st
    credited := fun k =>
      if marked ts (·.disableRankedScore) k.beatmapId && !(s.bestRows k).isEmpty &&
          (s.stats k.userMode).isSome then none
      else s.credited k }

end Soms.Scores
