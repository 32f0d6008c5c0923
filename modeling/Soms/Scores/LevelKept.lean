import Soms.Scores.Derived

/-!
# The stored level

Every processed score adds to `total_score`, and `level_current` is written only where the score
becomes the user's best on a map that gives ranked score.
-/

namespace Soms.Scores

open Txn

/-- The level of every user is that of the total. -/
def LevelLaw (s : State) : Prop :=
  ∀ um st, s.stats um = some st → st.levelCurrent = calculateScoreToLevel st.totalScore

/-- The score becomes the user's best on a map that gives ranked score. -/
def State.counts (srv : Server) (s : State) (sc : Score) (bm : Beatmap) : Bool :=
  let policy := s.effectivePolicy sc.beatmapId bm
  let hasLeaderboard := (sc.checked bm).leaderboardEligible && srv.grants policy .leaderboard
  let ranked := (sc.checked bm).rankedScoreEligible &&
    (policy.status.givesRankedScore && hasLeaderboard || srv.enableAllBeatmapPp)
  decide (s.displayOf srv.toSettings (srv.first (s.bestRows sc.key)) < srv.displayScore sc) &&
    sc.passed && ranked

/-- A score that does not count does not change the total above zero. -/
def RefreshesLevel (srv : Server) (s : State) (e : Event) : Prop :=
  match e with
  | .finalize _ sid =>
    ∀ sc ∈ s.scores.row sid, ∀ bm ∈ s.beatmaps.row sc.beatmapId, ∀ st ∈ s.stats sc.key.userMode,
      s.counts srv sc bm = true ∨ max 0 (st.totalScore + srv.displayScore sc) = max 0 st.totalScore
  | _ => True

instance (srv : Server) (s : State) (e : Event) : Decidable (RefreshesLevel srv s e) := by
  unfold RefreshesLevel
  split <;> infer_instance

/-! ## What leaves the level alone -/

namespace UserStatistics

/-- The total and the level. -/
def progress (st : UserStatistics) : Int × ℚ := (st.totalScore, st.levelCurrent)

variable (st : UserStatistics)

@[simp] theorem progress_changeGradeCount (rank : Rank) (delta : Int) :
    (st.changeGradeCount rank delta).progress = st.progress := by
  unfold changeGradeCount
  split <;> rfl

theorem progress_creditBest (rank : Rank) (previous : Option BestRow) (difference : Int) :
    (st.creditBest rank previous difference).progress =
      (st.totalScore, calculateScoreToLevel st.totalScore) := by
  have htotal : ∀ (u : UserStatistics) (rank : Rank) (delta : Int),
      (u.changeGradeCount rank delta).totalScore = u.totalScore :=
    fun u rank delta => congrArg Prod.fst (u.progress_changeGradeCount rank delta)
  cases previous <;> simp [creditBest, progress, htotal]

@[simp] theorem progress_addPlaytime (sc : Score) (length : Nat) :
    (st.addPlaytime sc length).progress = st.progress := by
  unfold addPlaytime
  dsimp only
  split <;> rfl

@[simp] theorem progress_addHits (sc : Score) : (st.addHits sc).progress = st.progress := by
  unfold addHits
  dsimp only
  split <;> rfl

end UserStatistics

theorem progress_statisticsAfter (sc : Score) (length : Nat) (previous : Option BestRow)
    (current difference : Int) (counts ranked hasPp : Bool) (userPp : ℚ × ℚ) (st : UserStatistics) :
    (statisticsAfter sc length previous current difference counts ranked hasPp userPp st).progress =
      (st.totalScore + current,
        if counts then calculateScoreToLevel (st.totalScore + current) else st.levelCurrent) := by
  have hpp : ∀ (u : UserStatistics) (p q : ℚ),
      ({ u with pp := p, hitAccuracy := q }).progress = u.progress := fun _ _ _ => rfl
  have hcombo : ∀ (u : UserStatistics) (n : Int),
      ({ u with maximumCombo := n }).progress = u.progress := fun _ _ => rfl
  unfold statisticsAfter
  simp only [apply_ite UserStatistics.progress, hpp, hcombo, ite_self,
    UserStatistics.progress_addHits, UserStatistics.progress_addPlaytime,
    UserStatistics.progress_creditBest]
  cases counts <;> rfl

theorem progress_retireRankedScore (srv : Server) (ts : List Transition) (s : State) (um : UserMode)
    (st : UserStatistics) : (retireRankedScore srv ts s um st).progress = st.progress := by
  refine foldl_leaves UserStatistics.progress (fun st b => ?_) _ _
  unfold retireContribution
  split
  · rw [UserStatistics.progress_changeGradeCount]
    rfl
  · rfl

theorem progress_reconcile (srv : Server) (ts : List Transition) (s : State) (um : UserMode) :
    ((reconcile srv ts s).stats um).map UserStatistics.progress =
      (s.stats um).map UserStatistics.progress := by
  cases hst : s.stats um with
  | none => simp [reconcile, hst]
  | some st =>
    have hpp : ∀ (u : UserStatistics) (x y : ℚ),
        ({ u with pp := x, hitAccuracy := y }).progress = u.progress := fun _ _ _ => rfl
    have hcombo : ∀ (scores : Table Score) (u : UserStatistics),
        (repairMaximumCombo scores um u).progress = u.progress := fun _ _ => rfl
    simp only [reconcile, hst, Option.map_some, Option.some.injEq]
    split_ifs <;> simp only [hpp, hcombo, progress_retireRankedScore]

theorem processStatistics_progress (srv : Server) (sid : ScoreId) (sc : Score) (length : Nat)
    (policy : EffectivePolicy) (st : UserStatistics) (s : State) :
    ∃ st', (processStatistics srv sid sc length policy st s).stats =
        Function.update s.stats sc.key.userMode (some st') ∧
      st'.progress = (st.totalScore + srv.displayScore sc,
        if decide (0 < srv.displayScore sc -
            s.displayOf srv.toSettings (srv.first (s.bestRows sc.key))) && sc.passed &&
            (sc.rankedScoreEligible && (policy.status.givesRankedScore &&
              (sc.leaderboardEligible && srv.grants policy .leaderboard) ||
                srv.enableAllBeatmapPp))
        then calculateScoreToLevel (st.totalScore + srv.displayScore sc)
        else st.levelCurrent) :=
  ⟨_, rfl, progress_statisticsAfter ..⟩

section Step

variable {srv : Deployment} {s t : State} {e : Event}

/-- The level of the total is a matter of both. -/
theorem levelLaw_iff : LevelLaw s ↔ ∀ um, ∀ p ∈ (s.stats um).map UserStatistics.progress,
    p.2 = calculateScoreToLevel p.1 := by
  unfold LevelLaw
  refine forall_congr' fun um => ?_
  cases s.stats um <;> simp [UserStatistics.progress]

/-- A step that is no finalisation keeps the levels in order. -/
theorem DerivedStep.levelLaw (h : DerivedStep srv.toServer s t) (hlaw : LevelLaw s) :
    LevelLaw t := by
  rw [levelLaw_iff] at hlaw ⊢
  cases h with
  | same _ hstats =>
    rw [hstats]
    exact hlaw
  | @registered um _ _ hstats =>
    intro um' p hp
    rw [hstats] at hp
    by_cases hum : um' = um
    · subst hum
      rw [Function.update_self, Option.map_some, Option.mem_some_iff] at hp
      subst hp
      exact (calculateScoreToLevel_of_nonpos (le_refl 0)).symm
    · rw [Function.update_of_ne hum] at hp
      exact hlaw um' p hp
  | @retried um st hst pp acc _ hstats =>
    intro um' p hp
    rw [hstats] at hp
    by_cases hum : um' = um
    · subst hum
      rw [Function.update_self] at hp
      exact hlaw um' p (by rw [hst]; exact hp)
    · rw [Function.update_of_ne hum] at hp
      exact hlaw um' p hp
  | @reconciled ts u _ hstats ht =>
    subst ht
    intro um p hp
    rw [progress_reconcile, hstats] at hp
    exact hlaw um p hp

/-- What a finalisation makes of the total and the level. -/
theorem progress_finalizeScore {srv : Server} {calculated : Option ℚ} {sid : ScoreId} {u : Unit}
    (h : finalizeScore srv calculated sid s = (.ok u, t)) :
    ∃ sc bm st st', s.scores.row sid = some sc ∧ s.beatmaps.row sc.beatmapId = some bm ∧
      s.stats sc.key.userMode = some st ∧
      t.stats = Function.update s.stats sc.key.userMode (some st') ∧
      st'.progress = (st.totalScore + srv.displayScore sc,
        if s.counts srv sc bm then calculateScoreToLevel (st.totalScore + srv.displayScore sc)
        else st.levelCurrent) := by
  obtain ⟨sc, bm, st, w, hsc, hbm, hst, -, hresult, hrows, hstats, ht⟩ :=
    finalizeScore_statistics h
  obtain ⟨st', hst', hprogress⟩ := processStatistics_progress srv sid (sc.checked bm) bm.totalLength
    (s.effectivePolicy sc.beatmapId bm) st w
  obtain ⟨hpassed, -, -, -, hdisplay⟩ := sc.checked_play bm
  have hdisplayOf := displayOf_congr srv.toSettings hresult
  rw [Score.key_checked, hstats] at hst'
  simp only [Score.key_checked, hdisplay, hpassed, hrows, hdisplayOf, Int.sub_pos] at hprogress
  exact ⟨sc, bm, st, st', hsc, hbm, hst, by rw [ht, ← hst'], hprogress⟩

/-- A step from levels that follow keeps them so exactly if it refreshes the level it has to. -/
theorem Step.levelLaw_iff (hlaw : LevelLaw s) (h : Step srv s e t) :
    LevelLaw t ↔ RefreshesLevel srv.toServer s e := by
  by_cases hother : ∀ calculated sid, e ≠ .finalize calculated sid
  · refine iff_of_true ((h.derived hother).levelLaw hlaw) ?_
    cases e with
    | finalize calculated sid => exact absurd rfl (hother calculated sid)
    | _ => trivial
  · push Not at hother
    obtain ⟨calculated, sid, rfl⟩ := hother
    obtain ⟨u, h⟩ := h
    obtain ⟨sc, bm, st, st', hsc, hbm, hst, hstats, hprogress⟩ := progress_finalizeScore h
    have hbefore := hlaw _ st hst
    have hthis : st'.levelCurrent = calculateScoreToLevel st'.totalScore ↔
        s.counts srv.toServer sc bm = true ∨
          max 0 (st.totalScore + srv.displayScore sc) = max 0 st.totalScore := by
      obtain ⟨htotal, hlevel⟩ := Prod.mk.inj hprogress
      rw [htotal, hlevel]
      split
      · next hcounts => simp [hcounts]
      · next hcounts =>
        simp only [hcounts, false_or, hbefore, Bool.false_eq_true]
        rw [calculateScoreToLevel_eq_iff, eq_comm]
    have hall : LevelLaw t ↔ st'.levelCurrent = calculateScoreToLevel st'.totalScore := by
      constructor
      · exact fun hlaw' => hlaw' sc.key.userMode st' (by rw [hstats, Function.update_self])
      · intro hthis um st'' hst''
        rw [hstats] at hst''
        by_cases hum : um = sc.key.userMode
        · subst hum
          rw [Function.update_self] at hst''
          exact Option.some.inj hst'' ▸ hthis
        · rw [Function.update_of_ne hum] at hst''
          exact hlaw um st'' hst''
    rw [hall, hthis]
    simp only [RefreshesLevel, hsc, Option.mem_some_iff, forall_eq', hbm, hst]

end Step

/-- **The stored level.**  All along a run the levels are those of the totals exactly if every
finalised score counts for the ranked score or leaves the total, as far as it is above zero, as it
is. -/
theorem level_follows_iff {srv : Deployment} {h : List (Event × State)} {s : State}
    (hrun : Runs srv (fun _ _ => True) h s) :
    (∀ x ∈ h, LevelLaw x.2) ↔ Runs srv (RefreshesLevel srv.toServer) h s :=
  hrun.always_iff (I := fun _ => True) (fun _ _ _ _ _ => trivial)
    (fun _ _ _ _ hlaw hstep => hstep.levelLaw_iff hlaw) trivial (by simp [LevelLaw, State.empty])

/-- Each play is better than the one before it. -/
theorem level_follows_iff_improved :
    (∀ x ∈ historyOf (State.after plainServer) State.empty
        (soloPlays [playOf 2000 [], playOf 1000 []]), LevelLaw x.2) ∧
      ((endState State.empty (historyOf (State.after plainServer) State.empty
        (soloPlays [playOf 2000 [], playOf 1000 []]))).stats (7, .osu)).map (·.levelCurrent) =
        some (11 / 10) :=
  have hrun : Runs plainServer (RefreshesLevel plainServer.toServer) _ _ :=
    Runs.of_accepted (soloPlays [playOf 2000 [], playOf 1000 []]) (by decide +kernel)
  ⟨(level_follows_iff (hrun.mono fun _ _ _ => trivial)).mpr hrun, by decide +kernel⟩

/-- A play that is worse than the best adds to the total alone. -/
theorem level_left_behind : ¬ ∀ (srv : Deployment) (h : List (Event × State)) (s : State),
    Runs srv (fun _ _ => True) h s → LevelLaw s := by
  intro hlaw
  have hlevel := hlaw plainServer _ _ (Runs.of_accepted (soloPlays [playOf 500 [], playOf 1000 []])
    (by decide +kernel)) (7, .osu)
  have hprogress : ((endState State.empty (historyOf (State.after plainServer) State.empty
      (soloPlays [playOf 500 [], playOf 1000 []]))).stats (7, .osu)).map
        UserStatistics.progress = some (1500, 31 / 30) := by
    decide +kernel
  obtain ⟨st, hst, hboth⟩ := Option.map_eq_some_iff.mp hprogress
  obtain ⟨htotal, hcurrent⟩ := Prod.mk.inj hboth
  have hlevel := hlevel st hst
  rw [htotal, hcurrent] at hlevel
  revert hlevel
  decide +kernel

end Soms.Scores
