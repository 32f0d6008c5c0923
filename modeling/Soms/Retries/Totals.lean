import Soms.Scores.PolicyStep
import Soms.Retries.Worker

/-!
# The PP totals follow the rows

The PP and the accuracy of a user in a mode are those of the user's `BestScore` rows
after every transaction.
-/

namespace Soms.Retries

open Soms.Scores Txn

/-- The PP totals are those of the rows; without statistics there are no rows. -/
structure PpAgrees (srv : Server) (s : State) : Prop where
  total : ∀ um st, s.stats um = some st → (st.pp, st.hitAccuracy) = srv.userPp (s.ppRows um)
  known : ∀ um, s.stats um = none → s.ppRows um = fun _ => none

section Transactions

variable {srv : Server} {s t : State}

theorem ppRows_congr (hrows : t.ppBest = s.ppBest) (um : UserMode) : t.ppRows um = s.ppRows um :=
  funext fun _ => congrFun hrows _

theorem PpAgrees.congr (hs : PpAgrees srv s) (hrows : t.ppBest = s.ppBest)
    (hstats : t.stats = s.stats) : PpAgrees srv t where
  total um st hst := by
    rw [hstats] at hst
    rw [ppRows_congr hrows]
    exact hs.total um st hst
  known um hnone := by
    rw [hstats] at hnone
    rw [ppRows_congr hrows]
    exact hs.known um hnone

/-! ## Reconciliation -/

theorem pp_changeGradeCount (rank : Rank) (delta : Int) (st : UserStatistics) :
    ((st.changeGradeCount rank delta).pp, (st.changeGradeCount rank delta).hitAccuracy) =
      (st.pp, st.hitAccuracy) := by
  unfold UserStatistics.changeGradeCount
  split <;> rfl

theorem pp_retireRankedScore (ts : List Transition) (s : State) (um : UserMode)
    (st : UserStatistics) :
    ((retireRankedScore srv ts s um st).pp, (retireRankedScore srv ts s um st).hitAccuracy) =
      (st.pp, st.hitAccuracy) := by
  refine foldl_leaves (fun st : UserStatistics => (st.pp, st.hitAccuracy)) (fun st b => ?_) _ st
  unfold retireContribution
  split
  · exact pp_changeGradeCount ..
  · rfl

/-- The rows of a user lose nothing if no difficulty that loses its PP has one. -/
theorem ppRows_reconcile {ts : List Transition} {um : UserMode}
    (h : (ts.any fun t => t.disablePp && (s.ppBest ⟨um.1, t.beatmapId, um.2⟩).isSome) = false) :
    (reconcile srv ts s).ppRows um = s.ppRows um := by
  funext b
  show (if marked ts (·.disablePp) b then none else s.ppBest ⟨um.1, b, um.2⟩) =
    s.ppBest ⟨um.1, b, um.2⟩
  split
  · next hmarked =>
    obtain ⟨t, ht, hdisabled⟩ := List.any_eq_true.mp hmarked
    simp only [Bool.and_eq_true, beq_iff_eq] at hdisabled
    have hnone := List.any_eq_false.mp h t ht
    rw [hdisabled.2, hdisabled.1] at hnone
    exact Eq.symm (by simpa using hnone)
  · rfl

theorem PpAgrees.reconcile (hs : PpAgrees srv s) (ts : List Transition) :
    PpAgrees srv (reconcile srv ts s) where
  total um st hst := by
    have hst : (s.stats um).map _ = some st := hst
    obtain ⟨old, hold, rfl⟩ := Option.map_eq_some_iff.mp hst
    have hkept : ∀ (c : Prop) [Decidable c] (scores : Table Score),
        (((if c then repairMaximumCombo scores um (retireRankedScore srv ts s um old)
          else retireRankedScore srv ts s um old)).pp,
        ((if c then repairMaximumCombo scores um (retireRankedScore srv ts s um old)
          else retireRankedScore srv ts s um old)).hitAccuracy) = (old.pp, old.hitAccuracy) := by
      intro c _ scores
      rw [← @pp_retireRankedScore srv ts s um old]
      split <;> rfl
    dsimp only
    split
    · rfl
    · next hnone =>
      rw [ppRows_reconcile (by simpa using hnone), ← hs.total um old hold]
      exact hkept _ _
  known um hnone := by
    have hnone : (s.stats um).map _ = none := hnone
    have hrows := hs.known um (Option.map_eq_none_iff.mp hnone)
    funext b
    show (if marked ts (·.disablePp) b then none else s.ppRows um b) = none
    rw [hrows, ite_self]

/-! ## Finalisation and retry -/

/-- Without PP for a passed score the rows stay. -/
theorem processScorePp_failed {calculated : Option ℚ} {sid : ScoreId} {sc : Score}
    (h : processScorePp srv calculated sid sc s = some t) (hfailed : sc.passed = false) :
    t.ppBest = s.ppBest := by
  unfold processScorePp at h
  rw [if_pos (by simp [hfailed])] at h
  rw [← Option.some.inj h]

theorem ppBest_awardPp {calculated : Option ℚ} {sid : ScoreId} {sc : Score}
    {policy : EffectivePolicy}
    (h : (sc.passed && (sc.ranked && srv.grants policy .pp)) = false) :
    (awardPp srv calculated sid sc policy s).ppBest = s.ppBest := by
  unfold awardPp
  split
  · next hgrant =>
    have hfailed : sc.passed = false := by simpa [hgrant] using h
    cases hpp : processScorePp srv calculated sid sc s with
    | none => rfl
    | some t => exact processScorePp_failed hpp hfailed
  · rfl

theorem pp_addHits (sc : Score) (st : UserStatistics) :
    ((st.addHits sc).pp, (st.addHits sc).hitAccuracy) = (st.pp, st.hitAccuracy) := by
  unfold UserStatistics.addHits
  dsimp only
  split <;> rfl

theorem pp_addPlaytime (sc : Score) (length : Nat) (st : UserStatistics) :
    ((st.addPlaytime sc length).pp, (st.addPlaytime sc length).hitAccuracy) =
      (st.pp, st.hitAccuracy) := by
  unfold UserStatistics.addPlaytime
  dsimp only
  split <;> rfl

theorem pp_creditBest (rank : Rank) (previous : Option BestRow) (difference : Int)
    (st : UserStatistics) :
    ((st.creditBest rank previous difference).pp,
      (st.creditBest rank previous difference).hitAccuracy) = (st.pp, st.hitAccuracy) := by
  unfold UserStatistics.creditBest
  cases previous with
  | none => exact pp_changeGradeCount ..
  | some row => exact (pp_changeGradeCount ..).trans (pp_changeGradeCount ..)

theorem pp_statisticsAfter {sc : Score} {length : Nat} {previous : Option BestRow}
    {current difference : Int} {counts ranked hasPp : Bool} {userPp : ℚ × ℚ}
    {st : UserStatistics} :
    ((statisticsAfter sc length previous current difference counts ranked hasPp userPp st).pp,
      (statisticsAfter sc length previous current difference counts ranked hasPp userPp
        st).hitAccuracy) =
      if sc.passed && hasPp then userPp else (st.pp, st.hitAccuracy) := by
  unfold statisticsAfter
  dsimp only
  split
  · rfl
  · rw [pp_addHits, pp_addPlaytime]
    have hcredit : ∀ u : UserStatistics, u.pp = st.pp ∧ u.hitAccuracy = st.hitAccuracy →
        ((if sc.passed && ranked then { u with maximumCombo := max u.maximumCombo sc.maxCombo }
          else u).pp,
        (if sc.passed && ranked then { u with maximumCombo := max u.maximumCombo sc.maxCombo }
          else u).hitAccuracy) = (st.pp, st.hitAccuracy) := by
      rintro u ⟨hpp, hacc⟩
      split <;> simp [hpp, hacc]
    refine hcredit _ ?_
    split
    · have hboth := pp_creditBest sc.rank previous difference
        { st with totalScore := st.totalScore + current }
      simpa using hboth
    · exact ⟨rfl, rfl⟩

/-- A row of one user and mode is none of another's. -/
theorem ppRows_update {k : MapKey} {row : Option PpRow} {um : UserMode}
    (hrows : t.ppBest = s.ppBest ∨ t.ppBest = Function.update s.ppBest k row)
    (hum : um ≠ k.userMode) : t.ppRows um = s.ppRows um := by
  rcases hrows with hrows | hrows
  · exact ppRows_congr hrows um
  · funext b
    show t.ppBest ⟨um.1, b, um.2⟩ = s.ppBest ⟨um.1, b, um.2⟩
    rw [hrows, Function.update_of_ne]
    rintro rfl
    exact hum rfl

/-- The statistics of one user and mode are replaced, with the PP of the rows. -/
theorem PpAgrees.replace (hs : PpAgrees srv s) {um : UserMode} {st st' : UserStatistics}
    (hst : s.stats um = some st) (hrows : ∀ um', um' ≠ um → t.ppRows um' = s.ppRows um')
    (hstats : t.stats = Function.update s.stats um (some st'))
    (hpp : (st'.pp, st'.hitAccuracy) = srv.userPp (t.ppRows um)) : PpAgrees srv t where
  total um' st'' hst'' := by
    rw [hstats] at hst''
    by_cases hum : um' = um
    · subst hum
      rw [Function.update_self] at hst''
      rw [← Option.some.inj hst'']
      exact hpp
    · rw [Function.update_of_ne hum] at hst''
      rw [hrows um' hum]
      exact hs.total um' st'' hst''
  known um' hnone := by
    rw [hstats] at hnone
    by_cases hum : um' = um
    · rw [hum, Function.update_self] at hnone
      exact absurd hnone (by simp)
    · rw [Function.update_of_ne hum] at hnone
      rw [hrows um' hum]
      exact hs.known um' hnone

theorem PpAgrees.finalize (hs : PpAgrees srv s) {calculated : Option ℚ} {sid : ScoreId} {u : Unit}
    (h : finalizeScore srv calculated sid s = (.ok u, t)) : PpAgrees srv t := by
  obtain ⟨sc, bm, st, -, -, hst, -, rfl⟩ := finalizeScore_ok h
  obtain ⟨v, hv⟩ : ∃ v, v = { s with scores := s.scores.modify sid fun _ => sc.checked bm } :=
    ⟨_, rfl⟩
  obtain ⟨policy, hpolicy⟩ : ∃ policy, policy = v.effectivePolicy (sc.checked bm).beatmapId bm :=
    ⟨_, rfl⟩
  obtain ⟨pp, hw, hrows⟩ := awardPp_eq srv calculated sid (sc.checked bm) policy v
  have hkept : ((sc.checked bm).passed && ((sc.checked bm).ranked && srv.grants policy .pp)) =
      false → (awardPp srv calculated sid (sc.checked bm) policy v).ppBest = v.ppBest :=
    ppBest_awardPp
  rw [← hv, processUser_eq]
  dsimp only
  rw [← hpolicy]
  obtain ⟨w, hwdef⟩ : ∃ w, w = awardPp srv calculated sid (sc.checked bm) policy v := ⟨_, rfl⟩
  rw [← hwdef] at hw hrows hkept ⊢
  rw [← Score.key_checked sc bm] at hst
  have hvrows : ∀ um, v.ppRows um = s.ppRows um := ppRows_congr (by rw [hv])
  have hwstats : w.stats = s.stats := by rw [hw, hv]
  have hwrows : ∀ um, um ≠ (sc.checked bm).key.userMode → w.ppRows um = s.ppRows um := by
    intro um hum
    rw [← hvrows um]
    rcases hrows with hrows | ⟨-, row, -, hrows⟩
    · exact ppRows_congr hrows um
    · exact ppRows_update (.inr hrows) hum
  refine hs.replace hst hwrows (congrArg (Function.update · _ _) hwstats) ?_
  show _ = srv.userPp (w.ppRows _)
  rw [pp_statisticsAfter]
  split
  · rfl
  · next hno =>
    rw [hs.total _ st hst, ← hvrows, ppRows_congr (hkept (by simpa using hno))]

/-- The state once a retried score was checked against the chart. -/
def rechecked (s : State) (sid : ScoreId) (sc : Score) (bm : Beatmap) : State :=
  { s with scores := s.scores.modify sid fun _ => sc.checked bm }

/-- The PP and the accuracy of a user and mode are taken from the rows. -/
def retotalled (srv : Server) (s : State) (um : UserMode) (st : UserStatistics) : State :=
  { s with
    stats := Function.update s.stats um <| some
      { st with pp := (srv.userPp (s.ppRows um)).1, hitAccuracy := (srv.userPp (s.ppRows um)).2 } }

/-- What a retry does to a processed score whose rows are there. -/
theorem retryPp_eq {calculated : Option ℚ} {sid : ScoreId} {sc : Score} {bm : Beatmap}
    {st : UserStatistics} (hsc : s.scores.row sid = some sc)
    (hbm : s.beatmaps.row sc.beatmapId = some bm) (hset : s.sets bm.setId = true)
    (hst : s.stats sc.key.userMode = some st) (hdone : sc.processed = true) :
    retryPp srv calculated sid s =
      if (sc.checked bm).ranked && srv.grants (s.effectivePolicy sc.beatmapId bm) .pp then
        match processScorePp srv calculated sid (sc.checked bm) (rechecked s sid sc bm) with
        | some w => (.ok (), retotalled srv w (sc.checked bm).key.userMode st)
        | none => (.error .ppFailed, rechecked s sid sc bm)
      else (.ok (), rechecked s sid sc bm) := by
  unfold retryPp
  simp only [bind, Txn.bind, require, refuse, Txn.read, write, hsc, hbm, hset, hst, hdone,
    Bool.true_eq_false, if_false]
  split
  · show Txn.bind (require _ _) _ _ = _
    unfold Txn.bind require
    rw [show ({ s with scores := s.scores.modify sid fun _ => sc.checked bm } : State) =
      rechecked s sid sc bm from rfl]
    cases processScorePp srv calculated sid (sc.checked bm) (rechecked s sid sc bm) <;> rfl
  · rfl

theorem retryPp_rows {calculated : Option ℚ} {sid : ScoreId} {u : Unit}
    (h : retryPp srv calculated sid s = (.ok u, t)) :
    ∃ sc bm st, s.scores.row sid = some sc ∧ s.beatmaps.row sc.beatmapId = some bm ∧
      s.sets bm.setId = true ∧ s.stats sc.key.userMode = some st ∧ sc.processed = true := by
  simp only [retryPp, bind_ok, require_ok, refuse_ok] at h
  obtain ⟨sc, _, ⟨hsc, rfl⟩, bm, _, ⟨hbm, rfl⟩, _, _, ⟨hset, rfl⟩, st, _, ⟨hst, rfl⟩, _, _,
    ⟨hdone, rfl⟩, -⟩ := h
  exact ⟨sc, bm, st, hsc, hbm, by simpa using hset, hst, by simpa using hdone⟩

theorem PpAgrees.retry (hs : PpAgrees srv s) {calculated : Option ℚ} {sid : ScoreId} {u : Unit}
    (h : retryPp srv calculated sid s = (.ok u, t)) : PpAgrees srv t := by
  obtain ⟨sc, bm, st, hsc, hbm, hset, hst, hdone⟩ := retryPp_rows h
  rw [retryPp_eq hsc hbm hset hst hdone] at h
  split at h
  · split at h
    · next w hw =>
      obtain ⟨-, rfl⟩ := Prod.mk.inj h
      obtain ⟨pp, hweq, hrows⟩ := processScorePp_some hw
      rw [← Score.key_checked sc bm] at hst
      have hwstats : w.stats = s.stats := by rw [hweq]; rfl
      exact hs.replace hst (fun um hum => ppRows_update hrows hum)
        (congrArg (Function.update · _ _) hwstats) rfl
    · simp at h
  · obtain ⟨-, rfl⟩ := Prod.mk.inj h
    exact hs.congr rfl rfl

end Transactions

/-! ## Every step -/

section Policies

variable {srv : Service} {s t : State}

theorem invalidate_pp (setId : SetId) (b : BeatmapId) (old new : Option Checksum)
    (oldUpdated newUpdated : Option Time) :
    (invalidateForUpstreamChange setId b old new oldUpdated newUpdated s).ppBest = s.ppBest ∧
      (invalidateForUpstreamChange setId b old new oldUpdated newUpdated s).stats = s.stats := by
  unfold invalidateForUpstreamChange
  split_ifs
  · exact ⟨rfl, rfl⟩
  · exact ⟨rfl, rfl⟩
  · split
    · split_ifs
      · exact ⟨rfl, rfl⟩
      · unfold unpinDifficulty
        split
        · split_ifs <;> exact ⟨rfl, rfl⟩
        · exact ⟨rfl, rfl⟩
    · exact ⟨rfl, rfl⟩

theorem manual_pp {e : Scores.Event} {affected : List BeatmapId} {change : State → State}
    (h : Manual s e affected change) :
    (change s).ppBest = s.ppBest ∧ (change s).stats = s.stats := by
  cases h with
  | setDefault =>
    unfold applySetPolicy
    split <;> exact ⟨rfl, rfl⟩
  | _ => exact ⟨rfl, rfl⟩

theorem PpAgrees.synced (hs : PpAgrees srv.toServer s) {setId : SetId} {b : BeatmapId}
    {u : Option Upstream} (h : Synced srv.toServer s setId b u t) : PpAgrees srv.toServer t := by
  have hrevised : ∀ {v : State} {old new : Option Checksum} {oldUpdated newUpdated : Option Time},
      PpAgrees srv.toServer v →
      PpAgrees srv.toServer (invalidateForUpstreamChange setId b old new oldUpdated newUpdated v) :=
    fun hv => hv.congr (invalidate_pp ..).1 (invalidate_pp ..).2
  have hput : ∀ {v : State} (bm : Beatmap), PpAgrees srv.toServer v →
      PpAgrees srv.toServer (v.putBeatmap b bm) := fun bm hv => hv.congr rfl rfl
  cases h with
  | idle => exact hs
  | added => exact hrevised (hput _ hs)
  | readded => exact hrevised (hput _ hs)
  | deleted => exact PpAgrees.reconcile (hput _ (hrevised hs)) _
  | updated => exact PpAgrees.reconcile (hput _ (hrevised hs)) _
  | statusChanged => exact PpAgrees.reconcile (hput _ hs) _
  | unchanged => exact hput _ hs

theorem PpAgrees.policy (hs : PpAgrees srv.toServer s) {e : Scores.Event}
    (h : PolicyStep srv.toDeployment s e t) (he : e.isPlay = false) : PpAgrees srv.toServer t := by
  cases h with
  | play hplay => exact absurd hplay (by simp [he])
  | fetched => exact hs.congr rfl rfl
  | manual h => exact PpAgrees.reconcile (hs.congr (manual_pp h).1 (manual_pp h).2) _
  | resolved => exact hs.congr rfl rfl
  | synced h => exact hs.synced h

theorem PpAgrees.register (hs : PpAgrees srv.toServer s) {um : UserMode} (hnew : s.stats um = none) :
    PpAgrees srv.toServer { s with stats := Function.update s.stats um (some {}) } where
  total um' st hst := by
    have hst : Function.update s.stats um (some {}) um' = some st := hst
    show _ = srv.userPp (s.ppRows um')
    by_cases heq : um' = um
    · subst heq
      rw [Function.update_self] at hst
      rw [hs.known um' hnew, srv.userPp_none, ← Option.some.inj hst]
    · rw [Function.update_of_ne heq] at hst
      exact hs.total um' st hst
  known um' hnone := by
    have hnone : Function.update s.stats um (some {}) um' = none := hnone
    by_cases heq : um' = um
    · rw [heq, Function.update_self] at hnone
      exact absurd hnone (by simp)
    · rw [Function.update_of_ne heq] at hnone
      exact hs.known um' hnone

/-- **Every transaction** keeps the PP totals those of the rows. -/
theorem PpAgrees.step (hs : PpAgrees srv.toServer s) {e : Scores.Event}
    (h : Scores.Step srv.toDeployment s e t) : PpAgrees srv.toServer t := by
  have hpolicy := h.policies
  obtain ⟨u, hrun⟩ := h
  cases e with
  | register uid mode =>
    simp only [serve, bind_ok, refuse_ok, write_ok] at hrun
    obtain ⟨_, _, ⟨hnew, rfl⟩, rfl⟩ := hrun
    exact hs.register (by simpa using hnew)
  | createSolo now uid b checksum version =>
    simp only [serve, createSoloScore, bind_ok, refuse_ok, read_ok, write_ok, pure_ok] at hrun
    obtain ⟨_, _, ⟨_, _, ⟨-, rfl⟩, _, _, ⟨rfl, rfl⟩, _, _, rfl, rfl, rfl⟩, -, rfl⟩ := hrun
    exact hs.congr rfl rfl
  | createPlaylist now roomId itemId uid b checksum version =>
    simp only [serve, createPlaylistScore, bind_ok, refuse_ok, read_ok, write_ok, pure_ok] at hrun
    obtain ⟨_, _, ⟨_, _, ⟨-, rfl⟩, _, _, ⟨-, rfl⟩, _, _, ⟨rfl, rfl⟩, _, _, rfl, rfl, rfl⟩, -,
      rfl⟩ := hrun
    exact hs.congr rfl rfl
  | submitSolo now uid tokenId info =>
    simp only [serve, bind_ok, pure_ok] at hrun
    obtain ⟨⟨sid, created⟩, _, hsub, -, rfl⟩ := hrun
    obtain ⟨token, -, -, hcases⟩ := submitScore_ok hsub
    rcases hcases with ⟨-, -, rfl⟩ | ⟨-, -, -, bm, mode, info', -, -, rfl⟩
    · exact hs
    · exact hs.congr rfl rfl
  | submitPlaylist now view roomId itemId uid tokenId info =>
    obtain ⟨token, -, -, -, -, hcases⟩ := submitPlaylistScore_ok hrun
    rcases hcases with ⟨-, rfl⟩ | ⟨-, bm, mode, info', -, -, sc, -, rfl⟩
    · exact hs
    · exact hs.congr rfl rfl
  | finalize calculated sid => exact hs.finalize hrun
  | retry calculated sid => exact hs.retry hrun
  | _ => exact hs.policy hpolicy rfl

theorem ppAgrees_empty : PpAgrees srv.toServer State.empty where
  total um st hst := by simp [State.empty] at hst
  known _ _ := rfl

end Policies

end Soms.Retries
