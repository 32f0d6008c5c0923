import Soms.Scores.System

/-!
# Plays

What a play leaves for good: the token that is linked to its score, the score
itself up to its eligibility and its PP, the rows of the room it was played in and
the counters of the user that never go back.  A change of policy and a retry of a
processed score leave all of it alone.
-/

namespace Soms.Scores

open Txn

/-- The score without its eligibility and its PP, which policies take away. -/
def Score.core (sc : Score) : Score := { sc.ineligible with pp := 0 }

/-- The counters of the statistics to which every processed score adds. -/
inductive Tally where
  | totalScore | playCount | playTime | count300 | count100 | count50 | countMiss | totalHits
  deriving DecidableEq, Repr

def UserStatistics.tally (st : UserStatistics) : Tally → Int
  | .totalScore => st.totalScore
  | .playCount => st.playCount
  | .playTime => st.playTime
  | .count300 => st.count300
  | .count100 => st.count100
  | .count50 => st.count50
  | .countMiss => st.countMiss
  | .totalHits => st.totalHits

/-- What a score adds to the counters, where `length` is the length of its map. -/
def Score.tally (settings : Settings) (sc : Score) (length : Nat) : Tally → Int
  | .totalScore => settings.displayScore sc
  | .playCount => if (calculatePlaytime sc length).2 then 1 else 0
  | .playTime => if (calculatePlaytime sc length).2 then (calculatePlaytime sc length).1 else 0
  | .count300 => sc.n300 + sc.ngeki
  | .count100 => sc.n100 + sc.nkatu +
      if sc.mode = .fruits ∨ sc.mode = .fruitsrx then sc.nlargeTickHit else 0
  | .count50 => sc.n50 + if sc.mode = .fruits ∨ sc.mode = .fruitsrx then sc.nsmallTickHit else 0
  | .countMiss => sc.nmiss +
      if sc.mode = .fruits ∨ sc.mode = .fruitsrx then sc.nlargeTickMiss else 0
  | .totalHits => sc.n300 + sc.n100 + sc.n50 + sc.ngeki + sc.nkatu + sc.nlargeTickHit +
      sc.nlargeTickMiss + sc.nsmallTickHit

namespace State

/-- The tables of plays. -/
def plays (s : State) :
    Table Score × Table ScoreToken × (RoomId → UserId → List PlaylistBest) ×
      (RoomId → UserId → Option ItemAttempts) × (UserMode → Option (Tally → Int)) :=
  (s.scores.map Score.core, s.tokens, s.playlistBest, s.itemAttempts,
    fun um => (s.stats um).map UserStatistics.tally)

end State

/-! ## The eligibility and the PP are not part of the core -/

@[simp] theorem Score.core_ineligible (sc : Score) : sc.ineligible.core = sc.core := rfl

@[simp] theorem Score.core_checked (sc : Score) (bm : Beatmap) : (sc.checked bm).core = sc.core := by
  unfold Score.checked
  split <;> rfl

@[simp] theorem Score.core_retire (ts : List Transition) (sc : Score) :
    (sc.retire ts).core = sc.core := rfl

@[simp] theorem Score.core_core (sc : Score) : sc.core.core = sc.core := rfl

theorem Score.tally_core (settings : Settings) (sc : Score) (length : Nat) :
    sc.core.tally settings length = sc.tally settings length := rfl

/-! ## Counters that policies leave alone -/

namespace UserStatistics

variable (st : UserStatistics)

@[simp] theorem tally_changeGradeCount (rank : Rank) (delta : Int) :
    (st.changeGradeCount rank delta).tally = st.tally := by
  unfold changeGradeCount
  split <;> rfl

@[simp] theorem tally_creditBest (rank : Rank) (previous : Option BestRow) (difference : Int) :
    (st.creditBest rank previous difference).tally = st.tally := by
  have hranked : ∀ (u : UserStatistics) (x : Int) (y : ℚ),
      ({ u with rankedScore := x, levelCurrent := y }).tally = u.tally := fun _ _ _ => rfl
  cases previous <;> simp [creditBest, hranked]

end UserStatistics

theorem tally_retireContribution (srv : Server) (s : State) (um : UserMode)
    (st : UserStatistics) (b : BeatmapId) :
    (retireContribution srv s um st b).tally = st.tally := by
  unfold retireContribution
  split
  · rw [UserStatistics.tally_changeGradeCount]
    rfl
  · rfl

theorem tally_retireRankedScore (srv : Server) (ts : List Transition) (s : State)
    (um : UserMode) (st : UserStatistics) : (retireRankedScore srv ts s um st).tally = st.tally :=
  foldl_leaves UserStatistics.tally (tally_retireContribution srv s um) _ _

theorem tally_repairMaximumCombo (scores : Table Score) (um : UserMode) (st : UserStatistics) :
    (repairMaximumCombo scores um st).tally = st.tally := rfl

namespace State

/-- A policy table is not part of the plays. -/
theorem plays_eq {s t : State} (hscores : t.scores.map Score.core = s.scores.map Score.core)
    (htokens : t.tokens = s.tokens) (hbest : t.playlistBest = s.playlistBest)
    (hattempts : t.itemAttempts = s.itemAttempts)
    (hstats : ∀ um, (t.stats um).map UserStatistics.tally =
      (s.stats um).map UserStatistics.tally) : t.plays = s.plays := by
  simp only [plays, hscores, htokens, hbest, hattempts, funext hstats]

theorem plays_row {s t : State} (h : t.plays = s.plays) (i : ScoreId) :
    (t.scores.row i).map Score.core = (s.scores.row i).map Score.core :=
  congrArg (fun p => p.1.row i) h

theorem plays_next {s t : State} (h : t.plays = s.plays) : t.scores.next = s.scores.next :=
  congrArg (fun p => p.1.next) h

theorem plays_tokens {s t : State} (h : t.plays = s.plays) : t.tokens = s.tokens :=
  congrArg (·.2.1) h

theorem plays_playlistBest {s t : State} (h : t.plays = s.plays) :
    t.playlistBest = s.playlistBest :=
  congrArg (·.2.2.1) h

theorem plays_itemAttempts {s t : State} (h : t.plays = s.plays) :
    t.itemAttempts = s.itemAttempts :=
  congrArg (·.2.2.2.1) h

theorem plays_stats {s t : State} (h : t.plays = s.plays) (um : UserMode) :
    (t.stats um).map UserStatistics.tally = (s.stats um).map UserStatistics.tally :=
  congrFun (congrArg (·.2.2.2.2) h) um

/-- A row of the one has a row of the other with the same core. -/
theorem plays_score {s t : State} (h : t.plays = s.plays) {i : ScoreId} {sc : Score}
    (hsc : t.scores.row i = some sc) : ∃ sc', s.scores.row i = some sc' ∧ sc'.core = sc.core := by
  have hrow := plays_row h i
  rw [hsc] at hrow
  exact Option.map_eq_some_iff.mp hrow.symm

theorem plays_reconcile (srv : Server) (ts : List Transition) (s : State) :
    (reconcile srv ts s).plays = s.plays := by
  refine plays_eq ?_ rfl rfl rfl fun um => ?_
  · show (s.scores.map (·.retire ts)).map Score.core = _
    rw [Table.map_map]
    exact Table.map_congr fun sc => Score.core_retire ts sc
  · cases hst : s.stats um with
    | none => simp [reconcile, hst]
    | some st =>
      have hpp : ∀ (u : UserStatistics) (x y : ℚ),
          ({ u with pp := x, hitAccuracy := y }).tally = u.tally := fun _ _ _ => rfl
      simp only [reconcile, hst, Option.map_some, Option.some.injEq]
      split_ifs <;>
        simp only [hpp, tally_repairMaximumCombo, tally_retireRankedScore]

/-! ## Frames -/

instance (srv : Server) (ts : State → List Transition) :
    Frame plays fun s => reconcile srv (ts s) s :=
  ⟨fun s => plays_reconcile srv (ts s) s⟩

instance (setId : SetId) (b : Option BeatmapId) : Frame plays (resolveEvents setId b) :=
  ⟨fun _ => rfl⟩

instance (setId : SetId) (status : BeatmapRankStatus) (forceUnranked replace : Bool) :
    Frame plays (applySetPolicy setId status forceUnranked replace) where
  eq s := by
    unfold applySetPolicy
    cases replace <;> rfl

instance (setId : SetId) (b : BeatmapId) (bm : Beatmap) (status : BeatmapRankStatus)
    (forceUnranked blocksSetPolicy : Bool) :
    Frame plays (writeOverride setId b bm status forceUnranked blocksSetPolicy) :=
  ⟨fun _ => rfl⟩

instance (setId : SetId) (p : BeatmapId → Bool) : Frame plays fun s =>
    resolveEvents setId none (clearOverrides setId p (clearSetRank setId s)) :=
  ⟨fun _ => rfl⟩

instance (setId : SetId) :
    Frame plays fun s => resolveEvents setId none (deactivateSetPolicy setId s) :=
  ⟨fun _ => rfl⟩

instance (setId : SetId) (b : BeatmapId) :
    Frame plays fun s => resolveEvents setId (some b) (deactivateMapPolicy b s) :=
  ⟨fun _ => rfl⟩

instance (srv : Server) (affected : List BeatmapId) (change : State → State)
    [h : Frame plays change] : Frame plays (changePolicy srv affected change) where
  eq s := by
    unfold changePolicy
    rw [plays_reconcile, h.eq]

instance (b : BeatmapId) (bm : Beatmap) : Frame plays (·.putBeatmap b bm) := ⟨fun _ => rfl⟩

instance (g : State → SetId → Bool) : Frame plays fun s => { s with sets := g s } :=
  ⟨fun _ => rfl⟩

instance (setId : SetId) (b : BeatmapId) (old new : Option Checksum)
    (oldUpdated newUpdated : Option Time) :
    Frame plays (invalidateForUpstreamChange setId b old new oldUpdated newUpdated) where
  eq s := by
    unfold invalidateForUpstreamChange
    split_ifs
    · rfl
    · rfl
    · split
      · split_ifs
        · rfl
        · unfold unpinDifficulty
          split
          · split_ifs <;> rfl
          · rfl
      · rfl

instance (srv : Server) (b : BeatmapId) (before : EffectivePolicy) :
    Frame plays (retireRevision srv b before) :=
  ⟨plays_reconcile srv _⟩

end State

/-! ## Bodies that leave the plays alone -/

section Bodies

set_option synthInstance.maxSize 2000

variable (srv : Server) (setId : SetId)

open State

instance (b : BeatmapId) : Leaves plays (requireDifficulty setId b) := by
  unfold requireDifficulty
  infer_instance

instance leaves_applyLocalRank (b : Option BeatmapId) (status : BeatmapRankStatus)
    (leaderboardEnabled ppEnabled : Option Bool) (forceUnranked replace : Bool) :
    Leaves plays (applyLocalRank srv setId b status leaderboardEnabled ppEnabled forceUnranked
      replace) := by
  unfold applyLocalRank
  cases b <;> infer_instance

instance leaves_applyLocalUnrank (b : Option BeatmapId) (replace : Bool) :
    Leaves plays (applyLocalUnrank srv setId b replace) := by
  unfold applyLocalUnrank
  cases b <;> infer_instance

instance leaves_clearLocalRank (b : Option BeatmapId) :
    Leaves plays (clearLocalRank srv setId b) := by
  unfold clearLocalRank
  cases b <;> infer_instance

instance leaves_resolveRankingEvent (b : BeatmapId) : Leaves plays (resolveRankingEvent setId b) := by
  unfold resolveRankingEvent
  infer_instance

instance (b : BeatmapId) (u : Upstream) : Leaves plays (mapAdded srv setId b u) := by
  unfold mapAdded
  dsimp only
  infer_instance

instance (b : BeatmapId) : Leaves plays (mapDeleted srv setId b) := by
  unfold mapDeleted
  infer_instance

instance (updated : Bool) (b : BeatmapId) (u : Upstream) :
    Leaves plays (mapChanged srv updated setId b u) := by
  unfold mapChanged
  refine .bind inferInstance fun _ => .bind inferInstance fun _ => .bind inferInstance fun o => ?_
  cases o <;> dsimp only <;> infer_instance

instance leaves_syncBeatmap (b : BeatmapId) (u : Option Upstream) :
    Leaves plays (syncBeatmap srv setId b u) := by
  unfold syncBeatmap
  refine .bind inferInstance fun existing => ?_
  cases classify existing u <;> cases u <;> infer_instance

instance leaves_fetchBeatmap (b : BeatmapId) (u : Upstream) : Leaves plays (fetchBeatmap b u) := by
  unfold fetchBeatmap
  infer_instance

end Bodies

end Soms.Scores
