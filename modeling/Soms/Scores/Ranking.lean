import Soms.Scores.Submit

/-!
# Changes of policy

The staff actions of `service/beatmap_ranking_service.py` and the changes that
`service/beatmapset_update_service.py` takes from upstream.  Each is one
transaction under the lock of the set, which ends with the reconciliation of the
scores.
-/

namespace Soms.Scores

open Txn

variable (srv : Server)

/-- The effective policy of a difficulty of the table. -/
def State.policyOf (s : State) (b : BeatmapId) : EffectivePolicy :=
  match s.beatmaps.row b with
  | some bm => s.effectivePolicy b bm
  | none => statusPolicy .graveyard .upstream

/-- A change of policy with `_finish_manual_policy_change`: the transitions of the
affected difficulties are planned from their policies before and after. -/
def changePolicy (affected : List BeatmapId) (change : State → State) (s : State) : State :=
  reconcile srv (srv.planTransitions s.policyOf (change s).policyOf affected) (change s)

/-! ## Staff actions -/

/-- `_resolve_flags`: explicit flags have to be those of the status. -/
def resolveFlags (status : BeatmapRankStatus) (leaderboardEnabled ppEnabled : Option Bool) :
    Option (Bool × Bool) :=
  let leaderboard := leaderboardEnabled.getD status.hasLeaderboard
  let pp := ppEnabled.getD status.hasPp
  if pp && !leaderboard then none
  else if leaderboard ≠ status.hasLeaderboard ∨ pp ≠ status.hasPp then none
  else some (leaderboard, pp)

/-- The difficulty of the set that an action is for. -/
def requireDifficulty (setId : SetId) (b : BeatmapId) : Act Beatmap := do
  let bm ← require (fun s => s.beatmaps.row b) .lookupError
  refuse (fun _ => bm.setId ≠ setId) .valueError
  refuse (fun _ => bm.deleted) .valueError
  return bm

/-- `apply_local_rank` -/
def applyLocalRank (setId : SetId) (b : Option BeatmapId) (status : BeatmapRankStatus)
    (leaderboardEnabled ppEnabled : Option Bool) (forceUnranked replace : Bool) : Act Unit := do
  let flags ← require (fun _ => resolveFlags status leaderboardEnabled ppEnabled) .valueError
  refuse (fun _ => forceUnranked && (flags.1 || flags.2)) .valueError
  refuse (fun s => s.sets setId = false) .lookupError
  match b with
  | none =>
    let maps ← read (·.activeMaps setId)
    refuse (fun _ => maps = []) .valueError
    write (changePolicy srv maps (applySetPolicy setId status forceUnranked replace))
  | some b =>
    let bm ← requireDifficulty setId b
    write (changePolicy srv [b] (writeOverride setId b bm status forceUnranked false))

/-- There is an active policy that a derank of the set would clear. -/
def State.hasPolicyToClear (s : State) (setId : SetId) (p : BeatmapId → Bool) : Bool :=
  (s.setPolicy setId).any (fun policy => policy.isActive && !policy.forceUnranked) ||
    s.beatmaps.ids.any fun b =>
      (s.mapPolicy b).any fun policy => policy.setId == setId && policy.isActive && p b

/-- `apply_local_unrank`: a local rank is removed, any other target is forced down. -/
def applyLocalUnrank (setId : SetId) (b : Option BeatmapId) (replace : Bool) : Act Unit := do
  refuse (fun s => s.sets setId = false) .lookupError
  match b with
  | some b =>
    let bm ← requireDifficulty setId b
    let policy ← read (·.effectivePolicy b bm)
    if policy.isLocalRank then
      write (changePolicy srv [b] (writeOverride setId b bm bm.status false true))
    else applyLocalRank srv setId (some b) .graveyard (some false) (some false) true false
  | none =>
    let maps ← read (·.activeMaps setId)
    refuse (fun _ => maps = []) .valueError
    let locallyRanked ← read fun s => maps.filter fun b => (s.policyOf b).isLocalRank
    if locallyRanked = [] then
      applyLocalRank srv setId none .graveyard (some false) (some false) true replace
    else do
      let selected (b : BeatmapId) : Bool := replace || locallyRanked.contains b
      refuse (fun s => s.hasPolicyToClear setId selected = false) .valueError
      write (changePolicy srv maps fun s =>
        resolveEvents setId none (clearOverrides setId selected (clearSetRank setId s)))

/-- `clear_local_rank` -/
def clearLocalRank (setId : SetId) (b : Option BeatmapId) : Act Unit := do
  refuse (fun s => s.sets setId = false) .lookupError
  match b with
  | none =>
    refuse (fun s => (s.setPolicy setId).isNone) .lookupError
    let maps ← read (·.activeMaps setId)
    write (changePolicy srv maps fun s =>
      resolveEvents setId none (deactivateSetPolicy setId s))
  | some b =>
    let _ ← requireDifficulty setId b
    refuse (fun s => (s.mapPolicy b).isNone) .lookupError
    write (changePolicy srv [b] fun s =>
      resolveEvents setId (some b) (deactivateMapPolicy b s))

/-- `resolve_ranking_event` of an event of the set's scope: no policy is written
and nothing is reconciled. -/
def resolveRankingEvent (setId : SetId) (b : BeatmapId) : Act Unit :=
  write (resolveEvents setId (some b))

/-! ## Upstream -/

/-- A difficulty in an upstream snapshot. -/
structure Upstream where
  setId : SetId
  checksum : Checksum
  status : BeatmapRankStatus
  lastUpdated : Option Time := none
  totalLength : Nat := 0
  hitLength : Nat := 0
  deriving DecidableEq, Repr

/-- `Beatmap.from_resp_no_save` -/
def Upstream.row (u : Upstream) : Beatmap :=
  { setId := u.setId, checksum := u.checksum, status := u.status, lastUpdated := u.lastUpdated
    totalLength := u.totalLength, hitLength := u.hitLength }

namespace State

/-- `session.merge` of a difficulty. -/
def putBeatmap (s : State) (b : BeatmapId) (bm : Beatmap) : State :=
  { s with beatmaps := s.beatmaps.put b bm }

end State

/-- `_retire_revision_derivatives` -/
def retireRevision (b : BeatmapId) (before : EffectivePolicy) (s : State) : State :=
  reconcile srv
    [{ beatmapId := b, disableLeaderboard := true, disablePp := true
       disableRankedScore := srv.grants before .rankedScore }] s

/-- `BeatmapChangeType.MAP_ADDED` of `_process_changed_beatmaps`.  A difficulty that
was deleted comes back without a reconciliation. -/
def mapAdded (setId : SetId) (b : BeatmapId) (u : Upstream) : Act Unit := do
  refuse (fun s => s.sets setId = false) .lookupError
  refuse (fun _ => u.setId ≠ setId) .valueError
  let existing ← read fun s => s.beatmaps.row b
  refuse (fun _ => existing.any (·.setId ≠ setId)) .valueError
  let wasDeleted := existing.any (·.deleted)
  let revisionChanged := wasDeleted || existing.all (·.checksum ≠ u.checksum)
  let before ← read fun s =>
    if wasDeleted then none
    else if revisionChanged then existing.map (s.effectivePolicy b)
    else none
  write (·.putBeatmap b u.row)
  when revisionChanged do
    write (invalidateForUpstreamChange setId b (existing.map (·.checksum)) (some u.checksum)
      (existing.bind (·.lastUpdated)) u.lastUpdated)
    onSome before fun before => write (retireRevision srv b before)

/-- `BeatmapChangeType.MAP_DELETED` -/
def mapDeleted (setId : SetId) (b : BeatmapId) : Act Unit := do
  refuse (fun s => s.sets setId = false) .lookupError
  let existing ← read fun s => s.beatmaps.row b
  onSome existing fun bm => do
    refuse (fun _ => bm.setId ≠ setId) .valueError
    when (!bm.deleted) do
      let before ← read (·.effectivePolicy b bm)
      write (invalidateForUpstreamChange setId b (some bm.checksum) none bm.lastUpdated none)
      write (·.putBeatmap b { bm with deleted := true })
      write (retireRevision srv b before)

/-- `BeatmapChangeType.MAP_UPDATED`, or `STATUS_CHANGED` where `updated` is false. -/
def mapChanged (updated : Bool) (setId : SetId) (b : BeatmapId) (u : Upstream) : Act Unit := do
  refuse (fun s => s.sets setId = false) .lookupError
  refuse (fun _ => u.setId ≠ setId) .valueError
  let existing ← read fun s => s.beatmaps.row b
  match existing with
  | none =>
    write (·.putBeatmap b u.row)
    write (invalidateForUpstreamChange setId b none (some u.checksum) none u.lastUpdated)
  | some bm =>
    refuse (fun _ => bm.setId ≠ setId) .valueError
    let before ← read (·.effectivePolicy b bm)
    let revisionChanged := updated && (bm.deleted || bm.checksum ≠ u.checksum)
    when revisionChanged do
      write (invalidateForUpstreamChange setId b (some bm.checksum) (some u.checksum)
        bm.lastUpdated u.lastUpdated)
    write (·.putBeatmap b u.row)
    if revisionChanged then write (retireRevision srv b before)
    else if !updated then
      write fun s => reconcile srv (srv.planTransitions (fun _ => before) s.policyOf [b]) s
    else pure ()

/-- What `_database_consistency_changes` finds for one difficulty: `u` is its entry
in the snapshot, if it has one. -/
inductive MapChange where
  | added | deleted | updated | statusChanged | unchanged
  deriving DecidableEq, Repr

def classify (existing : Option Beatmap) (u : Option Upstream) : MapChange :=
  match u, existing with
  | some u, some bm =>
    if bm.deleted then .added
    else if bm.checksum ≠ u.checksum then .updated
    else if bm.status ≠ u.status then .statusChanged
    else .unchanged
  | some _, none => .added
  | none, some bm => if bm.deleted then .unchanged else .deleted
  | none, none => .unchanged

/-- The synchronisation of one difficulty.  A set is synchronised by one worker at
a time; an unchanged difficulty has its other data refreshed. -/
def syncBeatmap (setId : SetId) (b : BeatmapId) (u : Option Upstream) : Act Unit := do
  let existing ← read fun s => s.beatmaps.row b
  match classify existing u, u with
  | .added, some u => mapAdded srv setId b u
  | .updated, some u => mapChanged srv true setId b u
  | .statusChanged, some u => mapChanged srv false setId b u
  | .deleted, _ => mapDeleted srv setId b
  | .unchanged, some u => do
    refuse (fun s => s.sets setId = false) .lookupError
    refuse (fun _ => u.setId ≠ setId ∨ existing.any (·.setId ≠ setId)) .valueError
    write (·.putBeatmap b u.row)
  | _, _ => pure ()

/-- `get_or_fetch`: a set and a difficulty that the server does not know yet. -/
def fetchBeatmap (b : BeatmapId) (u : Upstream) : Act Unit := do
  refuse (fun s => (s.beatmaps.row b).isSome) .skipped
  write fun s => { s with sets := Function.update s.sets u.setId true }
  write (·.putBeatmap b u.row)

end Soms.Scores
