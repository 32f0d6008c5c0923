import Soms.Scores.System

/-!
# Scores are deleted

`cleanup_expired_failed_solo_scores` of `database_cleanup_service.py` and `delete_user_score` of
`admin_score_service.py`, next to everything that `Soms.Scores` does with a score.

A deletion by an administrator rebuilds the aggregates of the player from the scores that are
left.  The cleanup deletes failed plays and leaves the aggregates alone.
-/

namespace Soms.Lifetime

open Soms.Scores Txn

/-! ## The cleanup -/

/-- A failed play outside any room that ended before the retention window. -/
def expired (now : Time) (retention : Int) (sc : Score) : Bool :=
  !sc.passed && sc.roomId.isNone && sc.playlistItemId.isNone &&
    decide (sc.endedAt ≤ now - retention)

/-- The expired scores, without those whose replay could not be deleted. -/
def deletable (now : Time) (retention : Int) (failed : List ScoreId) (s : State) : List ScoreId :=
  (s.scores.toList.filter fun x => expired now retention x.2 && !failed.contains x.1).map Prod.fst

/-- `cleanup_expired_failed_solo_scores` -/
def cleanupExpiredFailedSoloScores (now : Time) (retention : Int) (failed : List ScoreId)
    (s : State) : State :=
  let ids := deletable now retention failed s
  { s with
    tokens := s.tokens.filter fun token => !token.scoreId.any ids.contains
    scores := ids.foldl Table.delete s.scores }

/-! ## The deletion of one score -/

/-- `_reset_statistics` -/
def resetStatistics (st : UserStatistics) : UserStatistics :=
  { st with
    count100 := 0
    count300 := 0
    count50 := 0
    countMiss := 0
    rankedScore := 0
    totalScore := 0
    totalHits := 0
    maximumCombo := 0
    playCount := 0
    playTime := 0
    replaysWatchedByOthers := 0
    grades := fun _ => 0
    pp := 0
    hitAccuracy := 0
    levelCurrent := 1 }

/-- The derived rows of a user are deleted and the statistics are reset. -/
def clearAggregates (uid : UserId) (s : State) : State :=
  { s with
    ppBest := fun k => if k.userId = uid then none else s.ppBest k
    bestRows := fun k => if k.userId = uid then [] else s.bestRows k
    credited := fun k => if k.userId = uid then none else s.credited k
    playlistBest := fun roomId => Function.update (s.playlistBest roomId) uid []
    itemAttempts := fun roomId => Function.update (s.itemAttempts roomId) uid none
    stats := fun um => if um.1 = uid then (s.stats um).map resetStatistics else s.stats um }

/-- The processed scores of a user by the end of the play, then by id. -/
def gameplayScores (uid : UserId) (s : State) : List (ScoreId × Score) :=
  (s.scores.toList.filter fun x => x.2.userId == uid && x.2.processed).insertionSort
    fun x y => x.2.endedAt < y.2.endedAt ∨ x.2.endedAt = y.2.endedAt ∧ x.1 ≤ y.1

variable (srv : Server)

/-- `can_award_pp` -/
def canAwardPp (policy : EffectivePolicy) (sc : Score) : Bool :=
  sc.passed && sc.ranked && sc.rankedScoreEligible && srv.grants policy .pp &&
    srv.modsCanGetPp sc.mode.toInt sc.mods && decide (0 < sc.pp)

/-- The score with the most PP on each map, the first one of equals. -/
def rebuildPpBest (scores : List (ScoreId × Score)) (s : State) : State :=
  scores.foldl
    (fun s x =>
      match s.beatmaps.row x.2.beatmapId with
      | some bm =>
        if canAwardPp srv (s.effectivePolicy x.2.beatmapId bm) x.2 then
          placePpBest x.1 x.2 x.2.pp s
        else s
      | none => s)
    s

/-- `_process_statistics` of one score, with the hit length of its map. -/
def reprocess (x : ScoreId × Score) : Act Unit := do
  let bm ← require (fun s => s.beatmaps.row x.2.beatmapId) .lookupError
  let st ← require (fun s => s.stats x.2.key.userMode) .valueError
  write fun s =>
    processStatistics srv x.1 x.2 bm.hitLength (s.effectivePolicy x.2.beatmapId bm) st s

/-- The rows of the rooms in which the scores were played. -/
def rebuildPlaylists (uid : UserId) (scores : List (ScoreId × Score)) (s : State) : State :=
  let played := scores.filterMap fun x =>
    x.2.roomId.bind fun room => x.2.playlistItemId.map fun item => (room, item, x)
  let s := played.foldl
    (fun s (room, item, x) => processPlaylistBestScore room item uid x.1 x.2.totalScore s) s
  (played.map Prod.fst).dedup.foldl (fun s room => updateItemAttempts room uid s) s

/-- `rebuild_user_gameplay_aggregates` -/
def rebuildUserGameplayAggregates (uid : UserId) : Act Unit := do
  write (clearAggregates uid)
  let scores ← read (gameplayScores uid)
  write (rebuildPpBest srv scores)
  scores.forM (reprocess srv)
  write (rebuildPlaylists uid scores)

/-- The score and every row that refers to it. -/
def removeScore (sid : ScoreId) (s : State) : State :=
  { s with
    tokens := s.tokens.filter fun token => token.scoreId != some sid
    ppBest := fun k => (s.ppBest k).filter fun row => row.scoreId != sid
    bestRows := fun k => (s.bestRows k).filter fun row => row.scoreId != sid
    playlistBest := fun roomId uid =>
      (s.playlistBest roomId uid).filter fun row => row.scoreId != sid
    scores := s.scores.delete sid }

/-- `delete_user_score` -/
def deleteUserScore (uid : UserId) (sid : ScoreId) : Act Unit := do
  let _ ← require (fun s => (s.scores.row sid).filter fun sc => sc.userId == uid) .scoreNotFound
  write (removeScore sid)
  rebuildUserGameplayAggregates srv uid

/-! ## The system -/

inductive Event where
  /-- A transaction that deletes no score. -/
  | live (e : Scores.Event)
  | cleanup (now : Time) (retention : Int) (failed : List ScoreId)
  | deleteScore (uid : UserId) (sid : ScoreId)

variable (srv : Deployment)

/-- The transaction of an event. -/
def serve : Event → Act Unit
  | .live e => Scores.serve srv e
  | .cleanup now retention failed => write (cleanupExpiredFailedSoloScores now retention failed)
  | .deleteScore uid sid => deleteUserScore srv.toServer uid sid

/-- One committed transaction. -/
def Step (s : State) (e : Event) (t : State) : Prop := ∃ u, serve srv e s = (.ok u, t)

/-- The state after the transaction of an event. -/
def after (s : State) (e : Event) : State := (serve srv e s).2

end Soms.Lifetime
