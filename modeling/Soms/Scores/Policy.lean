import Soms.Scores.Data

/-!
# Ranking policies

`service/beatmap_ranking_service.py`: which policy is in effect for a difficulty
and what the staff actions and an upstream revision write.  The reconciliation
of the scores, which every change of a policy runs in the same transaction, is
in `Soms.Scores.Ranking`.
-/

namespace Soms.Scores

inductive PolicySource where
  | upstream | beatmapset | beatmap
  deriving DecidableEq, Repr

structure EffectivePolicy where
  status : BeatmapRankStatus
  leaderboardEnabled : Bool
  ppEnabled : Bool
  source : PolicySource
  deriving DecidableEq, Repr

/-- `_status_policy` -/
def statusPolicy (status : BeatmapRankStatus) (source : PolicySource) : EffectivePolicy :=
  ⟨status, status.hasLeaderboard, status.hasPp, source⟩

/-- `_is_effective_local_rank` -/
def EffectivePolicy.isLocalRank (p : EffectivePolicy) : Bool :=
  p.source != .upstream && p.leaderboardEnabled

/-- `_difficulty_policy_applies` -/
def MapPolicy.applies (p : MapPolicy) (checksum : Checksum) : Bool :=
  p.isActive && (p.forceUnranked || p.blocksSetPolicy || p.rankedChecksum == checksum)

/-- `_set_policy_applies_to_difficulty` -/
def SetPolicy.applies (p : SetPolicy) (b : BeatmapId) (checksum : Checksum) (pending : Bool) :
    Bool :=
  if !p.isActive then false
  else if p.forceUnranked then true
  else p.revisionManifest b == some checksum && !pending

namespace State

/-- `get_effective_beatmap_policy`: the override of the difficulty, else the
default of its set, else the upstream status. -/
def effectivePolicy (s : State) (b : BeatmapId) (bm : Beatmap) : EffectivePolicy :=
  if bm.deleted then statusPolicy .graveyard .upstream
  else
    match (s.mapPolicy b).filter (·.applies bm.checksum) with
    | some p =>
      if p.forceUnranked then ⟨p.status, p.leaderboardEnabled, p.ppEnabled, .beatmap⟩
      else if p.blocksSetPolicy then statusPolicy bm.status .upstream
      else ⟨p.status, p.leaderboardEnabled, p.ppEnabled, .beatmap⟩
    | none =>
      match (s.setPolicy bm.setId).filter
          (·.applies b bm.checksum (s.pendingReview b bm.setId)) with
      | some p => ⟨p.status, p.leaderboardEnabled, p.ppEnabled, .beatmapset⟩
      | none => statusPolicy bm.status .upstream

/-- The difficulties of a set that are not deleted. -/
def activeMaps (s : State) (setId : SetId) : List BeatmapId :=
  s.beatmaps.ids.filter fun b =>
    (s.beatmaps.row b).any fun bm => bm.setId == setId && !bm.deleted

end State

/-! ## Features -/

/-- What a policy grants to the scores of a difficulty. -/
inductive Feature where
  | leaderboard | pp | rankedScore
  deriving DecidableEq, Repr

/-- The features that a policy grants under the settings.  The same conditions
stand in the submission, the finalisation, the retry and the reconciliation. -/
def Settings.grants (settings : Settings) (p : EffectivePolicy) : Feature → Bool
  | .leaderboard => p.leaderboardEnabled || settings.enableAllBeatmapLeaderboard
  | .pp => p.ppEnabled || settings.enableAllBeatmapPp
  | .rankedScore =>
    p.status.givesRankedScore &&
        (p.leaderboardEnabled || settings.enableAllBeatmapLeaderboard) ||
      settings.enableAllBeatmapPp

/-- The eligibility that a score carries since its submission. -/
def Score.eligible (sc : Score) : Feature → Bool
  | .leaderboard => sc.leaderboardEligible
  | .pp => sc.ranked
  | .rankedScore => sc.rankedScoreEligible

/-- Ranked score comes with the leaderboard. -/
theorem Settings.grants_leaderboard {settings : Settings} {p : EffectivePolicy}
    (h : settings.grants p .rankedScore = true) : settings.grants p .leaderboard = true := by
  simp only [grants, Bool.or_eq_true, Bool.and_eq_true] at h ⊢
  rcases h with ⟨-, h⟩ | h
  · exact h
  · exact .inr (settings.globalPp h)

/-! ## What the staff actions write -/

/-- `_resolve_events` of a set, or of one of its difficulties. -/
def resolveEvents (setId : SetId) (b : Option BeatmapId) (s : State) : State :=
  { s with
    pendingReview := fun b' setId' =>
      s.pendingReview b' setId' && !(setId' == setId && b.all (· == b')) }

/-- Deactivate the overrides of the set's difficulties that the condition selects. -/
def clearOverrides (setId : SetId) (p : BeatmapId → Bool) (s : State) : State :=
  { s with
    mapPolicy := fun b => (s.mapPolicy b).map fun policy =>
      if policy.setId = setId ∧ policy.isActive ∧ p b then { policy with isActive := false }
      else policy }

/-- The default that `apply_local_rank` gives to a set, pinned to the checksums
of its difficulties. -/
def applySetPolicy (setId : SetId) (status : BeatmapRankStatus) (forceUnranked replace : Bool)
    (s : State) : State :=
  let s := if replace then clearOverrides setId (fun _ => true) s else s
  resolveEvents setId none
    { s with
      setPolicy := Function.update s.setPolicy setId <| some
        { status, leaderboardEnabled := status.hasLeaderboard, ppEnabled := status.hasPp,
          forceUnranked
          revisionManifest := fun b => (s.beatmaps.row b).bind fun bm =>
            if bm.setId = setId ∧ bm.deleted = false then some bm.checksum else none } }

/-- The override of a difficulty, pinned to its checksum.  A row that exists keeps
its set. -/
def writeOverride (setId : SetId) (b : BeatmapId) (bm : Beatmap) (status : BeatmapRankStatus)
    (forceUnranked blocksSetPolicy : Bool) (s : State) : State :=
  resolveEvents setId (some b)
    { s with
      mapPolicy := Function.update s.mapPolicy b <| some
        { setId := ((s.mapPolicy b).map (·.setId)).getD setId
          status, leaderboardEnabled := status.hasLeaderboard, ppEnabled := status.hasPp,
          forceUnranked, blocksSetPolicy, rankedChecksum := bm.checksum } }

/-- The set's default is deactivated unless it is a forced unrank. -/
def clearSetRank (setId : SetId) (s : State) : State :=
  { s with
    setPolicy := Function.update s.setPolicy setId <| (s.setPolicy setId).map fun p =>
      if p.isActive && !p.forceUnranked then { p with isActive := false } else p }

def deactivateSetPolicy (setId : SetId) (s : State) : State :=
  { s with
    setPolicy := Function.update s.setPolicy setId <|
      (s.setPolicy setId).map fun p => { p with isActive := false } }

def deactivateMapPolicy (b : BeatmapId) (s : State) : State :=
  { s with
    mapPolicy := Function.update s.mapPolicy b <|
      (s.mapPolicy b).map fun p => { p with isActive := false } }

/-! ## Upstream revisions -/

/-- The override is dropped unless it is a restriction or pins the new checksum. -/
def invalidateOverride (b : BeatmapId) (newChecksum : Option Checksum) (s : State) : State :=
  { s with
    mapPolicy := Function.update s.mapPolicy b <| (s.mapPolicy b).map fun p =>
      if p.isActive && !p.forceUnranked && !p.blocksSetPolicy &&
          (some p.rankedChecksum != newChecksum) then { p with isActive := false }
      else p }

/-- The set's default forgets the difficulty unless it pins the new checksum. -/
def unpinDifficulty (b : BeatmapId) (setId : SetId) (newChecksum : Option Checksum) (s : State) :
    State :=
  match s.setPolicy setId with
  | some p =>
    if p.isActive && !p.forceUnranked && (p.revisionManifest b != newChecksum) then
      { s with
        setPolicy := Function.update s.setPolicy setId
          (some { p with revisionManifest := Function.update p.revisionManifest b none })
        pendingReview := fun b' setId' =>
          s.pendingReview b' setId' || (b' == b && setId' == setId) }
    else s
  | none => s

/-- `invalidate_for_upstream_change` -/
def invalidateForUpstreamChange (setId : SetId) (b : BeatmapId)
    (oldChecksum newChecksum : Option Checksum) (oldLastUpdated newLastUpdated : Option Time)
    (s : State) : State :=
  if oldChecksum = newChecksum ∧ oldLastUpdated = newLastUpdated then s
  else if s.sets setId = false then s
  else
    match s.beatmaps.row b with
    | some bm =>
      if bm.setId ≠ setId then s
      else unpinDifficulty b bm.setId newChecksum (invalidateOverride b newChecksum s)
    | none => s

end Soms.Scores
