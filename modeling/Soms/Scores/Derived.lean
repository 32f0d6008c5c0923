import Soms.Scores.PolicyStep

/-!
# What a step does to the rows and the statistics

The counterpart of `Soms.Scores.PlayStep` for what is derived from the plays.  A finalisation
places its score and adds to the statistics.  The other steps leave both alone or reconcile them
with a policy.
-/

namespace Soms.Scores

open Txn

/-! ## Steps that place nothing -/

/-- What a step other than a finalisation does. -/
inductive DerivedStep (srv : Server) (s t : State) : Prop
  | same (hrows : t.bestRows = s.bestRows) (hstats : t.stats = s.stats)
  | registered {um : UserMode} (hnew : s.stats um = none) (hrows : t.bestRows = s.bestRows)
      (hstats : t.stats = Function.update s.stats um (some {}))
  | retried {um : UserMode} {st : UserStatistics} (hst : s.stats um = some st) (pp acc : ℚ)
      (hrows : t.bestRows = s.bestRows)
      (hstats : t.stats = Function.update s.stats um
        (some { st with pp := pp, hitAccuracy := acc }))
  | reconciled (ts : List Transition) {u : State} (hrows : u.bestRows = s.bestRows)
      (hstats : u.stats = s.stats) (ht : t = reconcile srv ts u)

section Derived

variable {s t : State}

theorem derived_manual {e : Event} {affected : List BeatmapId} {change : State → State}
    (h : Manual s e affected change) :
    (change s).bestRows = s.bestRows ∧ (change s).stats = s.stats := by
  cases h with
  | @setDefault _ setId status forceUnranked replace _ _ =>
    unfold applySetPolicy
    cases replace <;> exact ⟨rfl, rfl⟩
  | _ => exact ⟨rfl, rfl⟩

theorem derived_invalidate (setId : SetId) (b : BeatmapId) (old new : Option Checksum)
    (oldUpdated newUpdated : Option Time) (s : State) :
    (invalidateForUpstreamChange setId b old new oldUpdated newUpdated s).bestRows = s.bestRows ∧
      (invalidateForUpstreamChange setId b old new oldUpdated newUpdated s).stats = s.stats := by
  unfold invalidateForUpstreamChange
  split_ifs
  · exact ⟨rfl, rfl⟩
  · exact ⟨rfl, rfl⟩
  · split
    · split_ifs
      · exact ⟨rfl, rfl⟩
      · unfold unpinDifficulty
        split
        · split_ifs <;> exact ⟨rfl, rfl⟩
        · exact ⟨rfl, rfl⟩
    · exact ⟨rfl, rfl⟩

theorem DerivedStep.synced {srv : Server} {setId : SetId} {b : BeatmapId} {v : Option Upstream}
    (h : Synced srv s setId b v t) : DerivedStep srv s t := by
  have hsame := derived_invalidate setId b
  cases h with
  | idle => exact .same rfl rfl
  | added | readded => exact .same (hsame _ _ _ _ _).1 (hsame _ _ _ _ _).2
  | deleted =>
    exact .reconciled _ (u := (s.withdraw setId b _).putBeatmap b _) (hsame _ _ _ _ _).1
      (hsame _ _ _ _ _).2 rfl
  | updated =>
    exact .reconciled _ (u := (s.revise setId b _ _).putBeatmap b _) (hsame _ _ _ _ _).1
      (hsame _ _ _ _ _).2 rfl
  | statusChanged => exact .reconciled _ (u := s.putBeatmap b _) rfl rfl rfl
  | unchanged => exact .same rfl rfl

theorem DerivedStep.policyStep {srv : Deployment} {e : Event} (h : PolicyStep srv s e t)
    (hpolicy : e.isPlay = false) : DerivedStep srv.toServer s t := by
  cases h with
  | play hplay _ => simp [hpolicy] at hplay
  | fetched _ => exact .same rfl rfl
  | manual hmanual =>
    exact .reconciled _ (derived_manual hmanual).1 (derived_manual hmanual).2 rfl
  | resolved => exact .same rfl rfl
  | synced hsynced => exact .synced hsynced

theorem DerivedStep.retryPp {srv : Server} {calculated : Option ℚ} {sid : ScoreId} {v : Unit}
    (h : retryPp srv calculated sid s = (.ok v, t)) : DerivedStep srv s t := by
  obtain ⟨sc, bm, st, hsc, -, hst, -, v, w, rfl, hcases⟩ := retryPp_ok h
  rcases hcases with ⟨-, rfl⟩ | ⟨-, hpp, p, q, rfl⟩
  · exact .same rfl rfl
  · obtain ⟨pp, hw, -⟩ := processScorePp_some hpp
    rw [Score.key_checked]
    refine .retried hst p q ?_ ?_
    · rw [hw]
    · rw [hw]

/-- **What a step does** to the rows and the statistics if it is no finalisation. -/
theorem Step.derived {srv : Deployment} {e : Event} (h : Step srv s e t)
    (hother : ∀ calculated sid, e ≠ .finalize calculated sid) : DerivedStep srv.toServer s t := by
  have hpolicy := h.policies
  obtain ⟨v, h⟩ := h
  cases e with
  | register uid mode =>
    simp only [serve, bind_ok, refuse_ok, write_ok] at h
    obtain ⟨_, _, ⟨hnew, rfl⟩, rfl⟩ := h
    exact .registered (by simpa using hnew) rfl rfl
  | createSolo now uid b checksum version =>
    simp only [serve, createSoloScore, bind_ok, refuse_ok, read_ok, write_ok, pure_ok] at h
    obtain ⟨_, _, ⟨_, _, ⟨-, rfl⟩, _, _, ⟨rfl, rfl⟩, _, _, rfl, rfl, rfl⟩, -, rfl⟩ := h
    exact .same rfl rfl
  | createPlaylist now roomId itemId uid b checksum version =>
    simp only [serve, createPlaylistScore, bind_ok, refuse_ok, read_ok, write_ok, pure_ok] at h
    obtain ⟨_, _, ⟨_, _, ⟨-, rfl⟩, _, _, ⟨-, rfl⟩, _, _, ⟨rfl, rfl⟩, _, _, rfl, rfl, rfl⟩, -,
      rfl⟩ := h
    exact .same rfl rfl
  | submitSolo now uid tokenId info =>
    simp only [serve, bind_ok, pure_ok] at h
    obtain ⟨⟨sid, created⟩, _, hsub, -, rfl⟩ := h
    obtain ⟨token, -, -, hcases⟩ := submitScore_ok hsub
    rcases hcases with ⟨-, -, rfl⟩ | ⟨-, -, -, bm, mode, info', -, -, rfl⟩
    · exact .same rfl rfl
    · exact .same rfl rfl
  | submitPlaylist now view roomId itemId uid tokenId info =>
    obtain ⟨token, -, -, -, -, hcases⟩ := submitPlaylistScore_ok h
    rcases hcases with ⟨-, rfl⟩ | ⟨-, bm, mode, info', -, -, sc, -, rfl⟩
    · exact .same rfl rfl
    · exact .same rfl rfl
  | finalize calculated sid => exact absurd rfl (hother calculated sid)
  | retry calculated sid => exact .retryPp h
  | fetch | applyRank | unrank | clearRank | resolveEvent | sync =>
    exact .policyStep hpolicy rfl

/-- The rows of a key stay, or all of them go. -/
theorem DerivedStep.bestRows {srv : Server} (h : DerivedStep srv s t) (k : MapKey) :
    t.bestRows k = s.bestRows k ∨ t.bestRows k = [] := by
  cases h with
  | same hrows _ | registered _ hrows _ | retried _ _ _ hrows _ => exact .inl (by rw [hrows])
  | @reconciled ts u hrows _ ht =>
    subst ht
    show (if marked ts (·.dropsRows) k.beatmapId then [] else u.bestRows k) = _ ∨
      (if marked ts (·.dropsRows) k.beatmapId then [] else u.bestRows k) = []
    rw [hrows]
    split
    · exact .inr rfl
    · exact .inl rfl

end Derived

/-! ## Finalisation -/

/-- What the finalisation of a score places. -/
def State.placement (srv : Server) (s : State) (sid : ScoreId) : Option (MapKey × BestRow) := do
  let sc ← s.scores.row sid
  let bm ← s.beatmaps.row sc.beatmapId
  if sc.passed && (sc.checked bm).leaderboardEligible &&
      srv.grants (s.effectivePolicy sc.beatmapId bm) .leaderboard then
    some (sc.key, ⟨sid, sc.totalScore, modToSave sc.mods, sc.rank⟩)
  else none

/-- The rows of the key after a score is placed. -/
def State.rowsAfter (srv : Server) (s : State) (k : MapKey) (display : Int) (new : BestRow) :
    List BestRow :=
  let rows := s.bestRows k
  let previous := srv.first rows
  placeBestRow new (display - s.displayOf srv.toSettings previous) previous
    (srv.first (rows.filter fun row => row.mods = new.mods)) rows

section Finalisation

variable {srv : Server} {s t : State} {sid : ScoreId} {sc : Score}

/-- The display score is a matter of what was played. -/
theorem displayOf_congr (settings : Settings)
    (h : ∀ i, (t.scores.row i).map Score.result = (s.scores.row i).map Score.result)
    (row : Option BestRow) : t.displayOf settings row = s.displayOf settings row := by
  unfold State.displayOf
  cases row with
  | none => rfl
  | some row =>
    have hrow := h row.scoreId
    cases hs : s.scores.row row.scoreId <;> cases ht : t.scores.row row.scoreId <;>
      simp only [hs, ht, Option.map_some, Option.map_none, reduceCtorEq, Option.some.injEq] at hrow
    · simp [hs, ht]
    · next a b =>
      have hdisplay : settings.displayScore b = settings.displayScore a :=
        show settings.displayScore b.result = settings.displayScore a.result by rw [hrow]
      simp [hs, ht, hdisplay]

/-- The state in which a finalisation comes to the statistics: the plays, the rows and the
statistics are as before. -/
theorem finalizeScore_statistics {calculated : Option ℚ} {u : Unit}
    (h : finalizeScore srv calculated sid s = (.ok u, t)) :
    ∃ sc bm st w, s.scores.row sid = some sc ∧ s.beatmaps.row sc.beatmapId = some bm ∧
      s.stats sc.key.userMode = some st ∧
      w = awardPp srv calculated sid (sc.checked bm) (s.effectivePolicy sc.beatmapId bm)
        { s with scores := s.scores.modify sid fun _ => sc.checked bm } ∧
      (∀ i, (w.scores.row i).map Score.result = (s.scores.row i).map Score.result) ∧
      w.bestRows = s.bestRows ∧ w.stats = s.stats ∧
      t = { processStatistics srv sid (sc.checked bm) bm.totalLength
          (s.effectivePolicy sc.beatmapId bm) st w with
        scores := w.scores.modify sid fun sc => { sc with processed := true } } := by
  obtain ⟨sc, bm, st, hsc, hbm, hst, -, rfl⟩ := finalizeScore_ok h
  obtain ⟨v, hv⟩ : ∃ v, v = { s with scores := s.scores.modify sid fun _ => sc.checked bm } :=
    ⟨_, rfl⟩
  obtain ⟨policy, hpolicy⟩ : ∃ policy, policy = v.effectivePolicy (sc.checked bm).beatmapId bm :=
    ⟨_, rfl⟩
  obtain ⟨pp, haward, -⟩ := awardPp_eq srv calculated sid (sc.checked bm) policy v
  have hsame : policy = s.effectivePolicy sc.beatmapId bm := by
    rw [hpolicy, hv]
    unfold Score.checked
    split <;> rfl
  refine ⟨sc, bm, st, awardPp srv calculated sid (sc.checked bm) policy v, hsc, hbm, hst,
    by rw [hsame, hv], fun i => ?_, ?_, ?_, ?_⟩
  · rw [haward, hv]
    by_cases hi : i = sid
    · subst hi
      simp only [Table.row_modify, if_true, hsc, Option.map_some, Option.some.injEq]
      unfold Score.checked
      split <;> rfl
    · simp [Table.row_modify, hi]
  · rw [haward, hv]
  · rw [haward, hv]
  · rw [← hv, processUser_eq, ← hpolicy, hsame]
    rfl

/-- Eligibility aside, the score is what was played. -/
theorem Score.checked_play (sc : Score) (bm : Beatmap) :
    (sc.checked bm).passed = sc.passed ∧ (sc.checked bm).totalScore = sc.totalScore ∧
      (sc.checked bm).mods = sc.mods ∧ (sc.checked bm).rank = sc.rank ∧
      ∀ settings : Settings, settings.displayScore (sc.checked bm) = settings.displayScore sc := by
  unfold Score.checked
  split <;> exact ⟨rfl, rfl, rfl, rfl, fun _ => rfl⟩

/-- **A finalisation** places its score or leaves all rows as they are. -/
theorem bestRows_finalizeScore {calculated : Option ℚ} {u : Unit}
    (h : finalizeScore srv calculated sid s = (.ok u, t)) :
    (s.placement srv sid = none ∧ t.bestRows = s.bestRows) ∨
      ∃ sc new, s.scores.row sid = some sc ∧ s.placement srv sid = some (sc.key, new) ∧
        t.bestRows = Function.update s.bestRows sc.key
          (s.rowsAfter srv sc.key (srv.displayScore sc) new) := by
  obtain ⟨sc, bm, st, w, hsc, hbm, -, -, hresult, hrows, -, ht⟩ := finalizeScore_statistics h
  have hplaced : t.bestRows =
      if (sc.checked bm).passed && ((sc.checked bm).leaderboardEligible &&
          srv.grants (s.effectivePolicy sc.beatmapId bm) .leaderboard) then
        Function.update w.bestRows (sc.checked bm).key (w.rowsAfter srv (sc.checked bm).key
          (srv.displayScore (sc.checked bm)) ⟨sid, (sc.checked bm).totalScore,
            modToSave (sc.checked bm).mods, (sc.checked bm).rank⟩)
      else w.bestRows := by
    rw [ht]
    rfl
  have hafter : ∀ display new, w.rowsAfter srv sc.key display new =
      s.rowsAfter srv sc.key display new := by
    intro display new
    simp only [State.rowsAfter, hrows, displayOf_congr srv.toSettings hresult]
  obtain ⟨hpassed, htotal, hmods, hrank, hdisplay⟩ := sc.checked_play bm
  rw [hplaced, Score.key_checked, hpassed, htotal, hmods, hrank, hdisplay, hafter, hrows,
    ← Bool.and_assoc]
  simp only [State.placement, hsc, hbm, Option.bind_eq_bind, Option.bind_some]
  split
  · exact .inr ⟨sc, _, rfl, rfl, rfl⟩
  · exact .inl ⟨rfl, rfl⟩

end Finalisation

end Soms.Scores
