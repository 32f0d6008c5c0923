import Soms.Scores.LocalRank

/-!
# The policy of a set

`get_effective_beatmapset_policy`: the status that a set is shown and searched under.  It differs
from the upstream status only for sets that an active default or override names, since the writers
of the overrides keep them in the sets of their difficulties.
-/

namespace Soms.Scores

open Txn

/-- `EffectiveBeatmapsetPolicy` -/
structure EffectiveSetPolicy where
  status : BeatmapRankStatus
  leaderboardEnabled : Bool
  ppEnabled : Bool
  source : PolicySource
  locallyRankedDifficultyCount : Nat
  deriving DecidableEq, Repr

/-- The policy of a set that follows upstream. -/
def upstreamSetPolicy (status : BeatmapRankStatus) : EffectiveSetPolicy :=
  ⟨status, status.hasLeaderboard, status.hasPp, .upstream, 0⟩

/-- `_BEATMAPSET_STATUS_PRIORITY` -/
def BeatmapRankStatus.priority : BeatmapRankStatus → Nat
  | ranked => 7
  | approved => 6
  | loved => 5
  | qualified => 4
  | pending => 3
  | wip => 2
  | graveyard => 1

/-- `_aggregate_effective_difficulties`, which raises when there are none. -/
def aggregateEffectiveDifficulties (policies : List EffectivePolicy) :
    Option (BeatmapRankStatus × Bool × Bool) :=
  (policies.argmax (·.status.priority)).map fun strongest =>
    (strongest.status, policies.any (·.leaderboardEnabled), policies.any (·.ppEnabled))

namespace State

/-- The difficulties of a set, deleted ones included. -/
def difficulties (s : State) (setId : SetId) : List BeatmapId :=
  s.beatmaps.ids.filter fun b => (s.beatmaps.row b).any fun bm => bm.setId == setId

def effectiveDifficulties (s : State) (setId : SetId) : List EffectivePolicy :=
  (s.difficulties setId).map s.policyOf

/-- The effective policies of the set's difficulties that come from the given source. -/
def difficultiesFrom (s : State) (source : PolicySource) (setId : SetId) : List EffectivePolicy :=
  (s.effectiveDifficulties setId).filter (·.source == source)

/-- `get_effective_beatmapset_policy` of a set with an upstream status. -/
def effectiveSetPolicy (s : State) (setId : SetId) (status : BeatmapRankStatus) :
    EffectiveSetPolicy :=
  let inherited := s.difficultiesFrom .beatmapset setId
  let overrides := s.difficultiesFrom .beatmap setId
  match (s.setPolicy setId).filter fun p => p.isActive && !inherited.isEmpty with
  | some p =>
    ⟨p.status, p.leaderboardEnabled, p.ppEnabled, .beatmapset, inherited.length + overrides.length⟩
  | none =>
    match if overrides.isEmpty then none
      else aggregateEffectiveDifficulties (s.effectiveDifficulties setId) with
    | some (strongest, leaderboardEnabled, ppEnabled) =>
      ⟨strongest, leaderboardEnabled, ppEnabled, .beatmap, overrides.length⟩
    | none => upstreamSetPolicy status

/-- A policy with the source upstream is the one of the upstream status. -/
theorem effectiveSetPolicy_eq_upstream {s : State} {setId : SetId} {status : BeatmapRankStatus}
    (h : (s.effectiveSetPolicy setId status).source = .upstream) :
    s.effectiveSetPolicy setId status = upstreamSetPolicy status := by
  unfold effectiveSetPolicy at h ⊢
  dsimp only at h ⊢
  split at h
  · cases h
  · split at h
    · cases h
    · rfl

/-- No difficulty has a policy from the source. -/
theorem difficultiesFrom_eq_nil {s : State} {source : PolicySource} {setId : SetId}
    (h : ∀ b bm, s.beatmaps.row b = some bm → bm.setId = setId →
      (s.effectivePolicy b bm).source ≠ source) :
    s.difficultiesFrom source setId = [] := by
  refine List.filter_eq_nil_iff.mpr fun p hp => ?_
  obtain ⟨b, hb, rfl⟩ := List.mem_map.mp hp
  obtain ⟨-, hb⟩ := List.mem_filter.mp hb
  cases hrow : s.beatmaps.row b with
  | none => simp [hrow] at hb
  | some bm =>
    have hset : bm.setId = setId := by simpa [hrow] using hb
    have hsource := h b bm hrow hset
    simpa [policyOf, hrow] using hsource

/-- A set none of whose difficulties has a local policy follows upstream. -/
theorem effectiveSetPolicy_of_upstream {s : State} {setId : SetId} (status : BeatmapRankStatus)
    (h : ∀ b bm, s.beatmaps.row b = some bm → bm.setId = setId →
      (s.effectivePolicy b bm).source = .upstream) :
    s.effectiveSetPolicy setId status = upstreamSetPolicy status := by
  have hnone : ∀ source, source ≠ .upstream → s.difficultiesFrom source setId = [] :=
    fun source hsource => difficultiesFrom_eq_nil fun b bm hrow hset hfrom =>
      hsource (hfrom.symm.trans (h b bm hrow hset))
  unfold effectiveSetPolicy
  rw [hnone .beatmapset (by decide), hnone .beatmap (by decide)]
  simp

/-! ## What the writers keep -/

/-- An override names the set of its difficulty, and an override that only blocks the default is not
a forced unrank. -/
structure PolicyRows (s : State) : Prop where
  override_set : ∀ b p, s.mapPolicy b = some p →
    ∃ bm, s.beatmaps.row b = some bm ∧ bm.setId = p.setId
  tombstone : ∀ b p, s.mapPolicy b = some p → p.blocksSetPolicy = true → p.forceUnranked = false

/-- An active default, or an active override that does not only block the default, names the set. -/
def hasLocalPolicy (s : State) (setId : SetId) : Bool :=
  (s.setPolicy setId).any (·.isActive) ||
    s.beatmaps.ids.any fun b => (s.mapPolicy b).any fun p =>
      p.isActive && !p.blocksSetPolicy && p.setId == setId

/-- **A set that no policy names follows upstream.** -/
theorem PolicyRows.effectiveSetPolicy {s : State} (hs : s.PolicyRows) {setId : SetId}
    (status : BeatmapRankStatus) (h : s.hasLocalPolicy setId = false) :
    s.effectiveSetPolicy setId status = upstreamSetPolicy status := by
  obtain ⟨hdefault, hoverrides⟩ := Bool.or_eq_false_iff.mp h
  refine effectiveSetPolicy_of_upstream status fun b bm hrow hset => ?_
  have hdefault : (s.setPolicy bm.setId).filter
      (·.applies b bm.checksum (s.pendingReview b bm.setId)) = none := by
    rw [hset]
    cases hp : s.setPolicy setId with
    | none => rfl
    | some p =>
      have hoff : p.isActive = false := by simpa [hp] using hdefault
      simp [SetPolicy.applies, hoff]
  unfold effectivePolicy
  split
  · rfl
  · split
    · next p hp =>
      obtain ⟨hp, happlies⟩ := Option.filter_eq_some_iff.mp hp
      have hactive : p.isActive = true := by
        rw [MapPolicy.applies, Bool.and_eq_true] at happlies
        exact happlies.1
      have hblocks : p.blocksSetPolicy = true := by
        obtain ⟨bm', hbm', hsame⟩ := hs.override_set b p hp
        obtain rfl := Option.some.inj (hrow.symm.trans hbm')
        have hb := List.any_eq_false.mp hoverrides b
          ((s.beatmaps.mem_ids b).mpr (by rw [hrow]; rfl))
        simpa [hp, hactive, ← hsame, hset] using hb
      have hforced := hs.tombstone b p hp hblocks
      simp [hforced, hblocks, statusPolicy]
    · rw [hdefault]
      rfl

theorem policyRows_empty : State.empty.PolicyRows where
  override_set _ _ h := by cases h
  tombstone _ _ h := by cases h

/-- Rows that are deactivated at most, of difficulties that stay in their sets. -/
theorem PolicyRows.of_from {s t : State} (hs : s.PolicyRows)
    (hrows : ∀ b bm, s.beatmaps.row b = some bm →
      ∃ bm', t.beatmaps.row b = some bm' ∧ bm'.setId = bm.setId)
    (hfrom : ∀ b p, t.mapPolicy b = some p → ∃ p', s.mapPolicy b = some p' ∧ p.From p') :
    t.PolicyRows where
  override_set b p hp := by
    obtain ⟨p', hp', active, rfl, -⟩ := hfrom b p hp
    obtain ⟨bm, hbm, hset⟩ := hs.override_set b p' hp'
    obtain ⟨bm', hbm', hset'⟩ := hrows b bm hbm
    exact ⟨bm', hbm', hset'.trans hset⟩
  tombstone b p hp := by
    obtain ⟨p', hp', active, rfl, -⟩ := hfrom b p hp
    exact hs.tombstone b p' hp'

/-- The same on the same difficulties. -/
theorem PolicyRows.of_same {s t : State} (hs : s.PolicyRows) (hmaps : t.beatmaps = s.beatmaps)
    (hfrom : ∀ b p, t.mapPolicy b = some p → ∃ p', s.mapPolicy b = some p' ∧ p.From p') :
    t.PolicyRows :=
  hs.of_from (fun _ bm hbm => ⟨bm, by rw [hmaps, hbm], rfl⟩) hfrom

theorem PolicyRows.writeOverride {s : State} (hs : s.PolicyRows) {b : BeatmapId} {bm : Beatmap}
    {setId : SetId} (hrow : s.beatmaps.row b = some bm) (hset : bm.setId = setId)
    (status : BeatmapRankStatus) {forceUnranked blocksSetPolicy : Bool}
    (hkind : blocksSetPolicy = true → forceUnranked = false) :
    (writeOverride setId b bm status forceUnranked blocksSetPolicy s).PolicyRows where
  override_set b' p hp := by
    have hp : Function.update s.mapPolicy b _ b' = some p := hp
    by_cases hb : b' = b
    · subst hb
      rw [Function.update_self] at hp
      obtain rfl := Option.some.inj hp
      refine ⟨bm, hrow, ?_⟩
      cases hold : s.mapPolicy b' with
      | none => exact hset
      | some old =>
        obtain ⟨bm', hbm', hsame⟩ := hs.override_set b' old hold
        obtain rfl := Option.some.inj (hrow.symm.trans hbm')
        exact hsame
    · rw [Function.update_of_ne hb] at hp
      exact hs.override_set b' p hp
  tombstone b' p hp := by
    have hp : Function.update s.mapPolicy b _ b' = some p := hp
    by_cases hb : b' = b
    · subst hb
      rw [Function.update_self] at hp
      obtain rfl := Option.some.inj hp
      exact hkind
    · rw [Function.update_of_ne hb] at hp
      exact hs.tombstone b' p hp

theorem PolicyRows.applySetPolicy {s : State} (hs : s.PolicyRows) (setId : SetId)
    (status : BeatmapRankStatus) (forceUnranked replace : Bool) :
    (applySetPolicy setId status forceUnranked replace s).PolicyRows := by
  cases replace with
  | false => exact hs.of_same rfl fun _ p hp => ⟨p, hp, p.from_refl⟩
  | true =>
    refine hs.of_same rfl fun b p hp => ?_
    have hp : (clearOverrides setId (fun _ => true) s).mapPolicy b = some p := hp
    exact mapPolicy_clearOverrides hp

/-- The reconciliation of the scores reads the policies only. -/
theorem PolicyRows.changePolicy {s : State} {srv : Server} {affected : List BeatmapId}
    {change : State → State} (h : (change s).PolicyRows) :
    (changePolicy srv affected change s).PolicyRows :=
  h.of_same rfl fun _ p hp => ⟨p, hp, p.from_refl⟩

section Steps

variable {srv : Server} {setId : SetId} {s t : State} {u : Unit}

theorem PolicyRows.applyLocalRank (hs : s.PolicyRows) {b : Option BeatmapId}
    {status : BeatmapRankStatus} {leaderboard pp : Option Bool} {forceUnranked replace : Bool}
    (h : applyLocalRank srv setId b status leaderboard pp forceUnranked replace s = (.ok u, t)) :
    t.PolicyRows := by
  simp only [Scores.applyLocalRank, bind_ok, require_ok, refuse_ok] at h
  obtain ⟨flags, _, ⟨-, rfl⟩, _, _, ⟨-, rfl⟩, _, _, ⟨-, rfl⟩, h⟩ := h
  cases b with
  | none =>
    simp only [bind_ok, read_ok, refuse_ok, write_ok] at h
    obtain ⟨_, _, ⟨rfl, rfl⟩, _, _, ⟨-, rfl⟩, rfl⟩ := h
    exact (hs.applySetPolicy setId status forceUnranked replace).changePolicy
  | some b =>
    simp only [bind_ok, write_ok] at h
    obtain ⟨bm, _, hbm, rfl⟩ := h
    obtain ⟨hbm, hset, -, rfl⟩ := requireDifficulty_ok hbm
    exact (hs.writeOverride hbm hset status (by simp)).changePolicy

theorem PolicyRows.applyLocalUnrank (hs : s.PolicyRows) {b : Option BeatmapId} {replace : Bool}
    (h : applyLocalUnrank srv setId b replace s = (.ok u, t)) : t.PolicyRows := by
  simp only [Scores.applyLocalUnrank, bind_ok, refuse_ok] at h
  obtain ⟨_, _, ⟨-, rfl⟩, h⟩ := h
  cases b with
  | some b =>
    simp only [bind_ok, read_ok] at h
    obtain ⟨bm, _, hbm, _, _, ⟨rfl, rfl⟩, h⟩ := h
    obtain ⟨hbm, hset, -, rfl⟩ := requireDifficulty_ok hbm
    split at h
    · obtain rfl := write_ok.mp h
      exact (hs.writeOverride hbm hset bm.status (by simp)).changePolicy
    · exact hs.applyLocalRank h
  | none =>
    simp only [bind_ok, read_ok, refuse_ok] at h
    obtain ⟨_, _, ⟨rfl, rfl⟩, _, _, ⟨-, rfl⟩, _, _, ⟨rfl, rfl⟩, h⟩ := h
    split at h
    · exact hs.applyLocalRank h
    · simp only [bind_ok, refuse_ok, write_ok] at h
      obtain ⟨_, _, ⟨-, rfl⟩, rfl⟩ := h
      refine PolicyRows.changePolicy (hs.of_same rfl fun b p hp => ?_)
      obtain ⟨p', hp', rfl⟩ := Option.map_eq_some_iff.mp hp
      exact ⟨p', hp', p'.from_ite _⟩

theorem PolicyRows.clearLocalRank (hs : s.PolicyRows) {b : Option BeatmapId}
    (h : clearLocalRank srv setId b s = (.ok u, t)) : t.PolicyRows := by
  simp only [Scores.clearLocalRank, bind_ok, refuse_ok] at h
  obtain ⟨_, _, ⟨-, rfl⟩, h⟩ := h
  cases b with
  | none =>
    simp only [bind_ok, refuse_ok, read_ok, write_ok] at h
    obtain ⟨_, _, ⟨-, rfl⟩, _, _, ⟨rfl, rfl⟩, rfl⟩ := h
    exact PolicyRows.changePolicy (hs.of_same rfl fun _ p hp => ⟨p, hp, p.from_refl⟩)
  | some b =>
    simp only [bind_ok, refuse_ok, write_ok] at h
    obtain ⟨bm, _, hbm, _, _, ⟨-, rfl⟩, rfl⟩ := h
    obtain ⟨-, -, -, rfl⟩ := requireDifficulty_ok hbm
    refine PolicyRows.changePolicy (hs.of_same rfl fun b' p hp => ?_)
    obtain ⟨p', hp', hfrom, -⟩ := mapPolicy_update MapPolicy.from_deactivated hp
    exact ⟨p', hp', hfrom⟩

/-- A difficulty that is put in is new or stays in its set. -/
theorem PolicyRows.put (hs : s.PolicyRows) {b : BeatmapId} {r : Beatmap}
    (hmaps : t.beatmaps = s.beatmaps.put b r)
    (hrow : ∀ bm, s.beatmaps.row b = some bm → r.setId = bm.setId)
    (hfrom : ∀ b p, t.mapPolicy b = some p → ∃ p', s.mapPolicy b = some p' ∧ p.From p') :
    t.PolicyRows := by
  refine hs.of_from (fun b' bm hbm => ?_) hfrom
  rw [hmaps, Catalog.row_put]
  by_cases hb : b' = b
  · subst hb
    exact ⟨r, if_pos rfl, hrow bm hbm⟩
  · exact ⟨bm, by rw [if_neg hb, hbm], rfl⟩

theorem PolicyRows.synced (hs : s.PolicyRows) {b : BeatmapId} {v : Option Upstream}
    (h : Synced srv s setId b v t) : t.PolicyRows := by
  have hsame : ∀ b' p, s.mapPolicy b' = some p → ∃ p', s.mapPolicy b' = some p' ∧ p.From p' :=
    fun _ p hp => ⟨p, hp, p.from_refl⟩
  -- the difficulty is in the set that is synchronised
  have hin : ∀ {row bm : Beatmap}, s.beatmaps.row b = some bm → row.setId = bm.setId →
      ∀ bm', s.beatmaps.row b = some bm' → row.setId = bm'.setId := by
    intro row bm hbm hset bm' hbm'
    obtain rfl := Option.some.inj (hbm.symm.trans hbm')
    exact hset
  cases h with
  | idle => exact hs
  | @added u hset hu hnew =>
    obtain ⟨-, hmaps, hfrom, -⟩ := invalidateForUpstreamChange_spec
      (s.putBeatmap b u.row) setId b none (some u.checksum) none u.lastUpdated
    refine hs.put hmaps (fun bm hbm => ?_) hfrom
    rw [hnew] at hbm
    cases hbm
  | @readded u bm hset hu hbm hbmSet hgone =>
    obtain ⟨-, hmaps, hfrom, -⟩ := invalidateForUpstreamChange_spec
      (s.putBeatmap b u.row) setId b (some bm.checksum) (some u.checksum) bm.lastUpdated
      u.lastUpdated
    exact hs.put hmaps (hin hbm (hu.trans hbmSet.symm)) hfrom
  | @deleted bm hset hbm hbmSet halive =>
    obtain ⟨-, hmaps, hfrom, -⟩ := invalidateForUpstreamChange_spec
      s setId b (some bm.checksum) none bm.lastUpdated none
    refine hs.put (r := { bm with deleted := true }) ?_ (hin hbm rfl) hfrom
    show (State.withdraw s setId b bm).beatmaps.put b _ = _
    rw [State.withdraw, hmaps]
  | @updated u bm hset hu hbm hbmSet halive hrevised =>
    obtain ⟨-, hmaps, hfrom, -⟩ := invalidateForUpstreamChange_spec
      s setId b (some bm.checksum) (some u.checksum) bm.lastUpdated u.lastUpdated
    refine hs.put (r := u.row) ?_ (hin hbm (hu.trans hbmSet.symm)) hfrom
    show (State.revise s setId b bm u).beatmaps.put b _ = _
    rw [State.revise, hmaps]
  | @statusChanged u bm hset hu hbm hbmSet halive hchecksum =>
    exact hs.put (r := u.row) rfl (hin hbm (hu.trans hbmSet.symm)) hsame
  | @unchanged u bm hset hu hbm hbmSet halive hchecksum =>
    exact hs.put (r := u.row) rfl (hin hbm (hu.trans hbmSet.symm)) hsame

end Steps

end State

/-- **Every step keeps the overrides in the sets of their difficulties.** -/
theorem Step.policyRows {srv : Deployment} {s t : State} {e : Event} (h : Step srv s e t)
    (hs : s.PolicyRows) : t.PolicyRows := by
  by_cases hplay : e.isPlay = true
  · have hsame := h.play_policies hplay
    have hmaps : t.beatmaps = s.beatmaps := congrArg (·.2.1) hsame
    have hmap : t.mapPolicy = s.mapPolicy := congrArg (·.2.2.1) hsame
    exact hs.of_same hmaps fun b p hp => ⟨p, hmap ▸ hp, p.from_refl⟩
  obtain ⟨u, h⟩ := h
  cases e with
  | fetch b v =>
    simp only [serve, fetchBeatmap, bind_ok, refuse_ok, write_ok] at h
    obtain ⟨_, _, ⟨hnew, rfl⟩, _, _, rfl, rfl⟩ := h
    refine hs.put (r := v.row) rfl (fun bm hbm => ?_) fun _ p hp => ⟨p, hp, p.from_refl⟩
    rw [hbm] at hnew
    exact absurd rfl hnew
  | applyRank setId b status leaderboard pp forceUnranked replace => exact hs.applyLocalRank h
  | unrank setId b replace => exact hs.applyLocalUnrank h
  | clearRank setId b => exact hs.clearLocalRank h
  | resolveEvent setId b =>
    obtain rfl := write_ok.mp h
    exact hs.of_same rfl fun _ p hp => ⟨p, hp, p.from_refl⟩
  | sync setId b v => exact hs.synced (syncBeatmap_ok h)
  | register _ _ => exact absurd rfl hplay
  | createSolo _ _ _ _ _ => exact absurd rfl hplay
  | createPlaylist _ _ _ _ _ _ _ => exact absurd rfl hplay
  | submitSolo _ _ _ _ => exact absurd rfl hplay
  | submitPlaylist _ _ _ _ _ _ _ => exact absurd rfl hplay
  | finalize _ _ => exact absurd rfl hplay
  | retry _ _ => exact absurd rfl hplay

/-- Overrides name the sets of their difficulties in every state that is reached. -/
theorem Runs.policyRows {srv : Deployment} {P : State → Event → Prop} {h : List (Event × State)}
    {s : State} (hrun : Runs srv P h s) : s.PolicyRows :=
  hrun.toRun.invariant (fun _ _ _ hs _ hstep => hstep.policyRows hs) State.policyRows_empty

end Soms.Scores
