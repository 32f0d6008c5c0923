import Soms.Scores.PlayStep

/-!
# What a step does to the policies

The counterpart of `Soms.Scores.PlayStep` for the staff actions and the changes
from upstream: which policies are written, which difficulties are reconciled, and
what the transaction has checked before.
-/

namespace Soms.Scores

open Txn

namespace State

/-- The tables that effective policies are read from. -/
def policies (s : State) :
    (SetId → Bool) × Catalog Beatmap × (BeatmapId → Option MapPolicy) ×
      (SetId → Option SetPolicy) × (BeatmapId → SetId → Bool) :=
  (s.sets, s.beatmaps, s.mapPolicy, s.setPolicy, s.pendingReview)

theorem policies_eq {s t : State} (hsets : t.sets = s.sets) (hmaps : t.beatmaps = s.beatmaps)
    (hmap : t.mapPolicy = s.mapPolicy) (hset : t.setPolicy = s.setPolicy)
    (hpending : t.pendingReview = s.pendingReview) : t.policies = s.policies := by
  simp only [policies, hsets, hmaps, hmap, hset, hpending]

theorem policies_reconcile (srv : Server) (ts : List Transition) (s : State) :
    (reconcile srv ts s).policies = s.policies := rfl

theorem policies_effectivePolicy {s t : State} (h : t.policies = s.policies) (b : BeatmapId)
    (bm : Beatmap) : t.effectivePolicy b bm = s.effectivePolicy b bm := by
  have hmap : t.mapPolicy = s.mapPolicy := congrArg (·.2.2.1) h
  have hset : t.setPolicy = s.setPolicy := congrArg (·.2.2.2.1) h
  have hpending : t.pendingReview = s.pendingReview := congrArg (·.2.2.2.2) h
  simp only [effectivePolicy, hmap, hset, hpending]

end State

/-! ## Staff actions -/

/-- What a staff action writes, and the difficulties it may concern. -/
inductive Manual (s : State) : Event → List BeatmapId → (State → State) → Prop
  | override {e : Event} {setId : SetId} {b : BeatmapId} {bm : Beatmap}
      {status : BeatmapRankStatus} {forceUnranked blocksSetPolicy : Bool}
      (hbm : s.beatmaps.row b = some bm) (hset : bm.setId = setId) (halive : bm.deleted = false)
      (hforced : forceUnranked = true → status.hasLeaderboard = false ∧ status.hasPp = false)
      (hrank : forceUnranked = false → blocksSetPolicy = false → ∃ leaderboard pp replace,
        e = .applyRank setId (some b) status leaderboard pp false replace) :
      Manual s e [b] (writeOverride setId b bm status forceUnranked blocksSetPolicy)
  | setDefault {e : Event} {setId : SetId} {status : BeatmapRankStatus}
      {forceUnranked replace : Bool}
      (hforced : forceUnranked = true → status.hasLeaderboard = false ∧ status.hasPp = false)
      (hrank : forceUnranked = false → ∃ leaderboard pp,
        e = .applyRank setId none status leaderboard pp false replace) :
      Manual s e (s.activeMaps setId) (applySetPolicy setId status forceUnranked replace)
  | unrankSet {setId : SetId} {replace : Bool} {selected : BeatmapId → Bool}
      (hselected : ∀ b ∈ s.activeMaps setId, (s.policyOf b).isLocalRank = true →
        selected b = true) :
      Manual s (.unrank setId none replace) (s.activeMaps setId) fun s =>
        resolveEvents setId none (clearOverrides setId selected (clearSetRank setId s))
  | clearSet {setId : SetId} :
      Manual s (.clearRank setId none) (s.activeMaps setId) fun s =>
        resolveEvents setId none (deactivateSetPolicy setId s)
  | clearMap {setId : SetId} {b : BeatmapId} {bm : Beatmap} (hbm : s.beatmaps.row b = some bm)
      (hset : bm.setId = setId) (halive : bm.deleted = false) :
      Manual s (.clearRank setId (some b)) [b] fun s =>
        resolveEvents setId (some b) (deactivateMapPolicy b s)

theorem requireDifficulty_ok {setId : SetId} {b : BeatmapId} {bm : Beatmap} {s t : State}
    (h : requireDifficulty setId b s = (.ok bm, t)) :
    s.beatmaps.row b = some bm ∧ bm.setId = setId ∧ bm.deleted = false ∧ t = s := by
  simp only [requireDifficulty, bind_ok, require_ok, refuse_ok, pure_ok, not_not] at h
  obtain ⟨bm', _, ⟨hbm, rfl⟩, _, _, ⟨hset, rfl⟩, _, _, ⟨halive, rfl⟩, rfl, rfl⟩ := h
  exact ⟨hbm, hset, by simpa using halive, rfl⟩

/-- The flags of a status that is applied are those of the status. -/
theorem resolveFlags_some {status : BeatmapRankStatus} {leaderboard pp : Option Bool}
    {flags : Bool × Bool} (h : resolveFlags status leaderboard pp = some flags) :
    flags = (status.hasLeaderboard, status.hasPp) := by
  unfold resolveFlags at h
  dsimp only at h
  split_ifs at h with _ hflags
  push Not at hflags
  rw [← Option.some.inj h, hflags.1, hflags.2]

theorem applyLocalRank_ok {srv : Server} {setId : SetId} {b : Option BeatmapId}
    {status : BeatmapRankStatus} {leaderboard pp : Option Bool} {forceUnranked replace : Bool}
    {s t : State} {u : Unit} {e : Event}
    (h : applyLocalRank srv setId b status leaderboard pp forceUnranked replace s = (.ok u, t))
    (hrank : forceUnranked = false →
      e = .applyRank setId b status leaderboard pp false replace) :
    ∃ affected change, Manual s e affected change ∧ t = changePolicy srv affected change s := by
  simp only [applyLocalRank, bind_ok, require_ok, refuse_ok] at h
  obtain ⟨flags, _, ⟨hflags, rfl⟩, _, _, ⟨hforced, rfl⟩, _, _, ⟨-, rfl⟩, h⟩ := h
  obtain rfl := resolveFlags_some hflags
  have hforced : forceUnranked = true → status.hasLeaderboard = false ∧ status.hasPp = false := by
    simpa [not_or] using hforced
  cases b with
  | none =>
    simp only [bind_ok, read_ok, refuse_ok, write_ok] at h
    obtain ⟨_, _, ⟨rfl, rfl⟩, _, _, ⟨-, rfl⟩, rfl⟩ := h
    exact ⟨_, _, .setDefault hforced fun hoff => ⟨_, _, hrank hoff⟩, rfl⟩
  | some b =>
    simp only [bind_ok, write_ok] at h
    obtain ⟨bm, _, hbm, rfl⟩ := h
    obtain ⟨hbm, hset, halive, rfl⟩ := requireDifficulty_ok hbm
    exact ⟨_, _, .override hbm hset halive hforced fun hoff _ => ⟨_, _, _, hrank hoff⟩, rfl⟩

theorem applyLocalUnrank_ok {srv : Server} {setId : SetId} {b : Option BeatmapId}
    {replace : Bool} {s t : State} {u : Unit}
    (h : applyLocalUnrank srv setId b replace s = (.ok u, t)) :
    ∃ affected change, Manual s (.unrank setId b replace) affected change ∧
      t = changePolicy srv affected change s := by
  simp only [applyLocalUnrank, bind_ok, refuse_ok] at h
  obtain ⟨_, _, ⟨-, rfl⟩, h⟩ := h
  cases b with
  | some b =>
    simp only [bind_ok, read_ok] at h
    obtain ⟨bm, _, hbm, _, _, ⟨rfl, rfl⟩, h⟩ := h
    obtain ⟨hbm, hset, halive, rfl⟩ := requireDifficulty_ok hbm
    split at h
    · obtain rfl := write_ok.mp h
      exact ⟨_, _, .override hbm hset halive (by simp) (by simp), rfl⟩
    · exact applyLocalRank_ok h (by simp)
  | none =>
    simp only [bind_ok, read_ok, refuse_ok] at h
    obtain ⟨_, _, ⟨rfl, rfl⟩, _, _, ⟨-, rfl⟩, _, _, ⟨rfl, rfl⟩, h⟩ := h
    split at h
    · exact applyLocalRank_ok h (by simp)
    · simp only [bind_ok, refuse_ok, write_ok] at h
      obtain ⟨_, _, ⟨-, rfl⟩, rfl⟩ := h
      refine ⟨_, _, .unrankSet fun b hb hlocal => ?_, rfl⟩
      simp [hb, hlocal]

theorem clearLocalRank_ok {srv : Server} {setId : SetId} {b : Option BeatmapId} {s t : State}
    {u : Unit} (h : clearLocalRank srv setId b s = (.ok u, t)) :
    ∃ affected change, Manual s (.clearRank setId b) affected change ∧
      t = changePolicy srv affected change s := by
  simp only [clearLocalRank, bind_ok, refuse_ok] at h
  obtain ⟨_, _, ⟨-, rfl⟩, h⟩ := h
  cases b with
  | none =>
    simp only [bind_ok, refuse_ok, read_ok, write_ok] at h
    obtain ⟨_, _, ⟨-, rfl⟩, _, _, ⟨rfl, rfl⟩, rfl⟩ := h
    exact ⟨_, _, .clearSet, rfl⟩
  | some b =>
    simp only [bind_ok, refuse_ok, write_ok] at h
    obtain ⟨bm, _, hbm, _, _, ⟨-, rfl⟩, rfl⟩ := h
    obtain ⟨hbm, hset, halive, rfl⟩ := requireDifficulty_ok hbm
    exact ⟨_, _, .clearMap hbm hset halive, rfl⟩

/-! ## Upstream -/

namespace State

/-- The difficulty has a new revision. -/
def revise (s : State) (setId : SetId) (b : BeatmapId) (bm : Beatmap) (u : Upstream) : State :=
  invalidateForUpstreamChange setId b (some bm.checksum) (some u.checksum) bm.lastUpdated
    u.lastUpdated s

/-- The difficulty is gone. -/
def withdraw (s : State) (setId : SetId) (b : BeatmapId) (bm : Beatmap) : State :=
  invalidateForUpstreamChange setId b (some bm.checksum) none bm.lastUpdated none s

end State

/-- What the synchronisation of a difficulty does. -/
inductive Synced (srv : Server) (s : State) (setId : SetId) (b : BeatmapId) :
    Option Upstream → State → Prop
  | idle {u : Option Upstream} : Synced srv s setId b u s
  | added {u : Upstream} (hset : s.sets setId = true) (hu : u.setId = setId)
      (hnew : s.beatmaps.row b = none) :
      Synced srv s setId b (some u) (invalidateForUpstreamChange setId b none (some u.checksum)
        none u.lastUpdated (s.putBeatmap b u.row))
  | readded {u : Upstream} {bm : Beatmap} (hset : s.sets setId = true) (hu : u.setId = setId)
      (hbm : s.beatmaps.row b = some bm) (hbmSet : bm.setId = setId) (hgone : bm.deleted = true) :
      Synced srv s setId b (some u) ((s.putBeatmap b u.row).revise setId b bm u)
  | deleted {bm : Beatmap} (hset : s.sets setId = true) (hbm : s.beatmaps.row b = some bm)
      (hbmSet : bm.setId = setId) (halive : bm.deleted = false) :
      Synced srv s setId b none (retireRevision srv b (s.effectivePolicy b bm)
        ((s.withdraw setId b bm).putBeatmap b { bm with deleted := true }))
  | updated {u : Upstream} {bm : Beatmap} (hset : s.sets setId = true) (hu : u.setId = setId)
      (hbm : s.beatmaps.row b = some bm) (hbmSet : bm.setId = setId) (halive : bm.deleted = false)
      (hrevised : bm.checksum ≠ u.checksum) :
      Synced srv s setId b (some u) (retireRevision srv b (s.effectivePolicy b bm)
        ((s.revise setId b bm u).putBeatmap b u.row))
  | statusChanged {u : Upstream} {bm : Beatmap} (hset : s.sets setId = true) (hu : u.setId = setId)
      (hbm : s.beatmaps.row b = some bm) (hbmSet : bm.setId = setId) (halive : bm.deleted = false)
      (hsame : bm.checksum = u.checksum) :
      Synced srv s setId b (some u) (reconcile srv (srv.planTransitions
        (fun _ => s.effectivePolicy b bm) (s.putBeatmap b u.row).policyOf [b])
        (s.putBeatmap b u.row))
  | unchanged {u : Upstream} {bm : Beatmap} (hset : s.sets setId = true) (hu : u.setId = setId)
      (hbm : s.beatmaps.row b = some bm) (hbmSet : bm.setId = setId) (halive : bm.deleted = false)
      (hsame : bm.checksum = u.checksum) (hstatus : bm.status = u.status) :
      Synced srv s setId b (some u) (s.putBeatmap b u.row)

theorem mapAdded_ok {srv : Server} {setId : SetId} {b : BeatmapId} {u : Upstream} {s t : State}
    {x : Unit} (h : mapAdded srv setId b u s = (.ok x, t))
    (hgone : (s.beatmaps.row b).all (·.deleted) = true) : Synced srv s setId b (some u) t := by
  simp only [mapAdded, bind_ok, refuse_ok, read_ok, write_ok, not_not] at h
  obtain ⟨_, _, ⟨hset, rfl⟩, _, _, ⟨hu, rfl⟩, _, _, ⟨rfl, rfl⟩, _, _, ⟨hsets, rfl⟩, _, _,
    ⟨rfl, rfl⟩, _, _, rfl, h⟩ := h
  have hset : s.sets setId = true := by simpa using hset
  cases hbm : s.beatmaps.row b with
  | none =>
    simp only [hbm, Option.any_none, Option.all_none, Option.map_none, Option.bind_none,
      Bool.or_true, when_ok, true_and, bind_ok, write_ok, onSome_ok, ite_self,
      Bool.false_eq_true] at h
    obtain ⟨_, _, rfl, h⟩ | ⟨hfalse, -⟩ := h
    · rcases h with ⟨_, hnone, -⟩ | ⟨-, rfl⟩
      · simp at hnone
      · exact .added hset hu hbm
    · simp at hfalse
  | some bm =>
    have hdeleted : bm.deleted = true := by simpa [hbm] using hgone
    have hbmSet : bm.setId = setId := by simpa [hbm] using hsets
    simp only [hbm, Option.any_some, hdeleted, Bool.true_or, when_ok, true_and, bind_ok, write_ok,
      onSome_ok, if_true, Option.map_some, Option.bind_some] at h
    obtain ⟨_, _, rfl, h⟩ | ⟨hfalse, -⟩ := h
    · rcases h with ⟨_, hnone, -⟩ | ⟨-, rfl⟩
      · simp at hnone
      · exact .readded hset hu hbm hbmSet hdeleted
    · simp at hfalse

theorem mapDeleted_ok {srv : Server} {setId : SetId} {b : BeatmapId} {s t : State}
    {x : Unit} (h : mapDeleted srv setId b s = (.ok x, t)) : Synced srv s setId b none t := by
  simp only [mapDeleted, bind_ok, refuse_ok, read_ok, write_ok, onSome_ok, when_ok, not_not] at h
  obtain ⟨_, _, ⟨hset, rfl⟩, _, _, ⟨rfl, rfl⟩, h⟩ := h
  rcases h with ⟨bm, hbm, _, _, ⟨hbmSet, rfl⟩, h⟩ | ⟨-, rfl⟩
  · rcases h with ⟨halive, _, _, ⟨rfl, rfl⟩, _, _, rfl, _, _, rfl, rfl⟩ | ⟨-, rfl⟩
    · exact .deleted (by simpa using hset) hbm hbmSet (by simpa using halive)
    · exact .idle
  · exact .idle

theorem mapChanged_ok {srv : Server} {updated : Bool} {setId : SetId} {b : BeatmapId}
    {u : Upstream} {s t : State} {x : Unit} {bm : Beatmap} (hbm : s.beatmaps.row b = some bm)
    (halive : bm.deleted = false) (hupdated : updated = decide (bm.checksum ≠ u.checksum))
    (h : mapChanged srv updated setId b u s = (.ok x, t)) : Synced srv s setId b (some u) t := by
  simp only [mapChanged, bind_ok, refuse_ok, read_ok, not_not] at h
  obtain ⟨_, _, ⟨hset, rfl⟩, _, _, ⟨hu, rfl⟩, _, _, ⟨rfl, rfl⟩, h⟩ := h
  simp only [hbm, bind_ok, refuse_ok, read_ok, write_ok, when_ok, not_not] at h
  obtain ⟨_, _, ⟨hbmSet, rfl⟩, _, _, ⟨rfl, rfl⟩, _, _, hwhen, _, _, rfl, h⟩ := h
  have hset : s.sets setId = true := by simpa using hset
  by_cases hsame : bm.checksum = u.checksum
  · have hoff : updated = false := by simpa [hsame] using hupdated
    simp only [hoff, Bool.false_and, Bool.false_eq_true, false_and, false_or, if_false,
      Bool.not_false, if_true, write_ok, true_and] at hwhen h
    obtain rfl := hwhen
    rw [← h]
    exact .statusChanged hset hu hbm hbmSet halive hsame
  · have hon : updated = true := by simpa [hsame] using hupdated
    simp only [hon, halive, hsame, ne_eq, not_false_eq_true, decide_true, Bool.or_true,
      Bool.and_self, true_and, Bool.true_eq_false, false_and, or_false, if_true, write_ok] at hwhen h
    rw [← h, ← hwhen]
    exact .updated hset hu hbm hbmSet halive hsame

theorem syncBeatmap_ok {srv : Server} {setId : SetId} {b : BeatmapId} {u : Option Upstream}
    {s t : State} {x : Unit} (h : syncBeatmap srv setId b u s = (.ok x, t)) :
    Synced srv s setId b u t := by
  simp only [syncBeatmap, bind_ok, read_ok] at h
  obtain ⟨_, _, ⟨rfl, rfl⟩, h⟩ := h
  cases hbm : s.beatmaps.row b with
  | none =>
    rw [hbm] at h
    cases u with
    | none =>
      obtain ⟨-, rfl⟩ := pure_ok.mp h
      exact .idle
    | some u => exact mapAdded_ok h (by simp [hbm])
  | some bm =>
    rw [hbm] at h
    cases u with
    | none =>
      by_cases hgone : bm.deleted = true
      · simp only [classify, hgone, if_true] at h
        obtain ⟨-, rfl⟩ := pure_ok.mp h
        exact .idle
      · simp only [classify, hgone, Bool.false_eq_true, if_false] at h
        exact mapDeleted_ok h
    | some u =>
      by_cases hgone : bm.deleted = true
      · simp only [classify, hgone, if_true] at h
        exact mapAdded_ok h (by simp [hbm, hgone])
      · have halive : bm.deleted = false := by simpa using hgone
        by_cases hsame : bm.checksum = u.checksum
        · by_cases hstatus : bm.status = u.status
          · simp only [classify, halive, Bool.false_eq_true, hsame, hstatus, ne_eq, not_true_eq_false,
              if_false, bind_ok, refuse_ok, write_ok, Option.any_some, decide_eq_true_eq,
              not_or, not_not] at h
            obtain ⟨_, _, ⟨hset, rfl⟩, _, _, ⟨⟨hu, hbmSet⟩, rfl⟩, rfl⟩ := h
            exact .unchanged (by simpa using hset) hu hbm hbmSet halive hsame hstatus
          · simp only [classify, halive, Bool.false_eq_true, hsame, hstatus, ne_eq,
              not_true_eq_false, not_false_eq_true, if_false, if_true] at h
            exact mapChanged_ok hbm halive (by simp [hsame]) h
        · simp only [classify, halive, Bool.false_eq_true, hsame, ne_eq, not_false_eq_true,
            if_false, if_true] at h
          exact mapChanged_ok hbm halive (by simp [hsame]) h

/-! ## Every step -/

/-- Requests of players and background tasks. -/
def Event.isPlay : Event → Bool
  | .register .. | .createSolo .. | .createPlaylist .. | .submitSolo .. | .submitPlaylist ..
  | .finalize .. | .retry .. => true
  | _ => false

/-- What a step does to the policies. -/
inductive PolicyStep (srv : Deployment) (s : State) : Event → State → Prop
  | play {e : Event} {t : State} (hplay : e.isPlay = true) (hsame : t.policies = s.policies) :
      PolicyStep srv s e t
  | fetched {b : BeatmapId} {u : Upstream} (hnew : s.beatmaps.row b = none) :
      PolicyStep srv s (.fetch b u)
        (State.putBeatmap { s with sets := Function.update s.sets u.setId true } b u.row)
  | manual {e : Event} {affected : List BeatmapId} {change : State → State}
      (h : Manual s e affected change) :
      PolicyStep srv s e (changePolicy srv.toServer affected change s)
  | resolved {setId : SetId} {b : BeatmapId} :
      PolicyStep srv s (.resolveEvent setId b) (resolveEvents setId (some b) s)
  | synced {setId : SetId} {b : BeatmapId} {u : Option Upstream} {t : State}
      (h : Synced srv.toServer s setId b u t) : PolicyStep srv s (.sync setId b u) t

theorem policies_finalizeScore {srv : Server} {calculated : Option ℚ} {sid : ScoreId}
    {s t : State} {u : Unit} (h : finalizeScore srv calculated sid s = (.ok u, t)) :
    t.policies = s.policies := by
  obtain ⟨sc, bm, st, -, -, -, -, rfl⟩ := finalizeScore_ok h
  rw [processUser_eq]
  obtain ⟨pp, haward, -⟩ := awardPp_eq srv calculated sid (sc.checked bm)
    (State.effectivePolicy { s with scores := s.scores.modify sid fun _ => sc.checked bm }
      (sc.checked bm).beatmapId bm) { s with scores := s.scores.modify sid fun _ => sc.checked bm }
  show (awardPp srv calculated sid (sc.checked bm) _ _).policies = _
  rw [haward]
  rfl

theorem policies_retryPp {srv : Server} {calculated : Option ℚ} {sid : ScoreId}
    {s t : State} {u : Unit} (h : retryPp srv calculated sid s = (.ok u, t)) :
    t.policies = s.policies := by
  obtain ⟨sc, bm, st, -, -, -, -, v, w, rfl, hcases⟩ := retryPp_ok h
  rcases hcases with ⟨-, rfl⟩ | ⟨-, hpp, p, q, rfl⟩
  · rfl
  · obtain ⟨pp, hw, -⟩ := processScorePp_some hpp
    rw [hw]
    rfl

/-- Requests of players and background tasks leave the policies alone. -/
theorem Step.play_policies {srv : Deployment} {s t : State} {e : Event} (h : Step srv s e t)
    (hplay : e.isPlay = true) : t.policies = s.policies := by
  obtain ⟨u, h⟩ := h
  cases e with
  | register uid mode =>
    simp only [serve, bind_ok, refuse_ok, write_ok] at h
    obtain ⟨_, _, ⟨-, rfl⟩, rfl⟩ := h
    rfl
  | createSolo now uid b checksum version =>
    simp only [serve, createSoloScore, bind_ok, refuse_ok, read_ok, write_ok, pure_ok] at h
    obtain ⟨_, _, ⟨_, _, ⟨-, rfl⟩, _, _, ⟨rfl, rfl⟩, _, _, rfl, rfl, rfl⟩, -, rfl⟩ := h
    rfl
  | createPlaylist now roomId itemId uid b checksum version =>
    simp only [serve, createPlaylistScore, bind_ok, refuse_ok, read_ok, write_ok, pure_ok] at h
    obtain ⟨_, _, ⟨_, _, ⟨-, rfl⟩, _, _, ⟨-, rfl⟩, _, _, ⟨rfl, rfl⟩, _, _, rfl, rfl, rfl⟩, -,
      rfl⟩ := h
    rfl
  | submitSolo now uid tokenId info =>
    simp only [serve, bind_ok, pure_ok] at h
    obtain ⟨⟨sid, created⟩, _, hsub, -, rfl⟩ := h
    obtain ⟨token, -, -, hcases⟩ := submitScore_ok hsub
    rcases hcases with ⟨-, -, rfl⟩ | ⟨-, -, -, bm, mode, info', -, -, rfl⟩
    · rfl
    · rfl
  | submitPlaylist now view roomId itemId uid tokenId info =>
    obtain ⟨token, -, -, -, -, hcases⟩ := submitPlaylistScore_ok h
    rcases hcases with ⟨-, rfl⟩ | ⟨-, bm, mode, info', -, -, sc, -, rfl⟩
    · rfl
    · rfl
  | finalize calculated sid => exact policies_finalizeScore h
  | retry calculated sid => exact policies_retryPp h
  | fetch _ _ => cases hplay
  | applyRank _ _ _ _ _ _ _ => cases hplay
  | unrank _ _ _ => cases hplay
  | clearRank _ _ => cases hplay
  | resolveEvent _ _ => cases hplay
  | sync _ _ _ => cases hplay

/-- **What a step can do**, as far as policies go. -/
theorem Step.policies {srv : Deployment} {s t : State} {e : Event} (h : Step srv s e t) :
    PolicyStep srv s e t := by
  by_cases hplay : e.isPlay = true
  · exact .play hplay (h.play_policies hplay)
  obtain ⟨u, h⟩ := h
  cases e with
  | fetch b v =>
    simp only [serve, fetchBeatmap, bind_ok, refuse_ok, write_ok] at h
    obtain ⟨_, _, ⟨hnew, rfl⟩, _, _, rfl, rfl⟩ := h
    exact .fetched (by simpa using hnew)
  | applyRank setId b status leaderboard pp forceUnranked replace =>
    obtain ⟨affected, change, hmanual, rfl⟩ := applyLocalRank_ok
      (e := .applyRank setId b status leaderboard pp forceUnranked replace) h
      (by rintro rfl; rfl)
    exact .manual hmanual
  | unrank setId b replace =>
    obtain ⟨affected, change, hmanual, rfl⟩ := applyLocalUnrank_ok h
    exact .manual hmanual
  | clearRank setId b =>
    obtain ⟨affected, change, hmanual, rfl⟩ := clearLocalRank_ok h
    exact .manual hmanual
  | resolveEvent setId b =>
    obtain rfl := write_ok.mp h
    exact .resolved
  | sync setId b v => exact .synced (syncBeatmap_ok h)
  | register _ _ => exact absurd rfl hplay
  | createSolo _ _ _ _ _ => exact absurd rfl hplay
  | createPlaylist _ _ _ _ _ _ _ => exact absurd rfl hplay
  | submitSolo _ _ _ _ => exact absurd rfl hplay
  | submitPlaylist _ _ _ _ _ _ _ => exact absurd rfl hplay
  | finalize _ _ => exact absurd rfl hplay
  | retry _ _ => exact absurd rfl hplay

end Soms.Scores
