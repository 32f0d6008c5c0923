import Soms.Retries.Owed
import Soms.Retries.Totals

/-!
# A finished id may be replayed

What a pass that commits leaves of a score stays as it is while no policy changes, and
another pass over it finds nothing to do.
-/

namespace Soms.Retries

open Soms.Scores Txn

variable (srv : Service)

/-- The PP of the score is what the calculation gives, and the user's PP best of the map
is at least that; a score that can get no PP has none. -/
def Awarded (sid : ScoreId) (sc : Score) (best : MapKey → Option PpRow) : Prop :=
  if (sc.passed && sc.ranked && srv.modsCanGetPp sc.mode.toInt sc.mods) = true then
    (sc.pp = 0 → srv.performance sid = 0) ∧ ∃ row, best sc.key = some row ∧ sc.pp ≤ row.pp
  else sc.pp = 0

/-- The score is processed and checked against the chart, and has the PP that is due. -/
def Settled (sid : ScoreId) (s : State) : Prop :=
  ∃ sc bm, s.scores.row sid = some sc ∧ s.beatmaps.row sc.beatmapId = some bm ∧
    sc.processed = true ∧ sc.checked bm = sc ∧
    (ppAllowed srv sc bm s = true → Awarded srv sid sc s.ppBest)

variable {srv} {s t : State} {sid : ScoreId} {a : Attempt}

/-- A score that the check against the chart leaves as it is. -/
theorem checked_iff (sc : Score) (bm : Beatmap) :
    sc.checked bm = sc ↔ sc.mapMd5 = bm.checksum ∨
      sc.ranked = false ∧ sc.leaderboardEligible = false ∧ sc.rankedScoreEligible = false := by
  unfold Score.checked
  split
  · next heq => simp [heq]
  · next hne =>
    cases sc
    simp only [Score.ineligible, Score.mk.injEq, true_and, and_true, hne, false_or]
    simp [eq_comm]

theorem beatmapId_checked (sc : Score) (bm : Beatmap) :
    (sc.checked bm).beatmapId = sc.beatmapId :=
  congrArg MapKey.beatmapId (Score.key_checked sc bm)

theorem checked_checked (sc : Score) (bm : Beatmap) : (sc.checked bm).checked bm = sc.checked bm := by
  rw [checked_iff]
  unfold Score.checked
  split
  · next heq => exact .inl heq
  · exact .inr ⟨rfl, rfl, rfl⟩

/-- The check does not look at the PP and the mark. -/
theorem checked_processed {sc : Score} {bm : Beatmap} (h : sc.checked bm = sc) (pp : ℚ)
    (processed : Bool) :
    Score.checked { sc with pp := pp, processed := processed } bm =
      { sc with pp := pp, processed := processed } :=
  (checked_iff _ bm).mpr ((checked_iff sc bm).mp h)

/-! ## What the PP part leaves -/

/-- The PP that is set, and the best row of the map. -/
theorem processScorePp_awarded {sc : Score}
    (h : processScorePp srv.toServer (srv.calculated a sid) sid sc s = some t) :
    ∃ pp, t = { s with
        scores := s.scores.modify sid fun sc => { sc with pp := pp }
        ppBest := t.ppBest } ∧ Awarded srv sid { sc with pp := pp } t.ppBest := by
  unfold processScorePp at h
  split at h
  · next hno =>
    obtain rfl := Option.some.inj h
    refine ⟨0, rfl, ?_⟩
    unfold Awarded
    rw [if_neg (by simp [hno])]
  · next hcan =>
    obtain ⟨pp, hpp, rfl⟩ := Option.map_eq_some_iff.mp h
    have hzero : pp = 0 → srv.performance sid = 0 := by
      intro hzero
      split at hpp
      · next hne => exact absurd ((Option.some.inj hpp).trans hzero) hne
      · unfold Service.calculated at hpp
        split at hpp
        · exact (Option.some.inj hpp).trans hzero
        · simp at hpp
    unfold placePpBest
    split
    · refine ⟨pp, rfl, ?_⟩
      unfold Awarded
      rw [if_pos ((Bool.not_eq_false _).mp hcan)]
      exact ⟨hzero, _, Function.update_self .., le_rfl⟩
    · next hless =>
      refine ⟨pp, rfl, ?_⟩
      unfold Awarded
      rw [if_pos ((Bool.not_eq_false _).mp hcan)]
      have hless : ¬ ((s.ppBest sc.key).all fun previous => decide (previous.pp < pp)) = true := hless
      cases hrow : s.ppBest sc.key with
      | none => simp [hrow] at hless
      | some row => exact ⟨hzero, row, hrow, by simpa [hrow] using hless⟩

/-- A score with the PP that is due gets nothing more. -/
theorem processScorePp_same {sc : Score} {w : State} (hrow : s.scores.row sid = some sc)
    (hawarded : Awarded srv sid sc s.ppBest)
    (h : processScorePp srv.toServer (srv.calculated a sid) sid sc s = some w) : w = s := by
  have hsame : ∀ pp, pp = sc.pp →
      ({ s with scores := s.scores.modify sid fun sc => { sc with pp := pp } } : State) = s := by
    rintro pp rfl
    have hid : s.scores.modify sid (fun sc' => { sc' with pp := sc.pp }) = s.scores := by
      rw [Table.modify_congr (g := fun sc => sc), Table.modify_id]
      intro sc' hsc'
      rw [Option.some.inj (hsc'.symm.trans hrow)]
    rw [hid]
  unfold Awarded at hawarded
  unfold processScorePp at h
  split at h
  · next hno =>
    rw [if_neg (by simp [hno])] at hawarded
    rw [← Option.some.inj h, hsame 0 hawarded.symm]
  · next hcan =>
    rw [if_pos ((Bool.not_eq_false _).mp hcan)] at hawarded
    obtain ⟨hzero, row, hbest, hle⟩ := hawarded
    obtain ⟨pp, hpp, rfl⟩ := Option.map_eq_some_iff.mp h
    have hpp : pp = sc.pp := by
      split at hpp
      · exact (Option.some.inj hpp).symm
      · next hsc =>
        rw [not_not] at hsc
        unfold Service.calculated at hpp
        split at hpp
        · rw [← Option.some.inj hpp, hzero hsc, hsc]
        · simp at hpp
    rw [hsame pp hpp]
    unfold placePpBest
    rw [if_neg]
    rw [hbest, hpp]
    simpa using hle

/-! ## A pass that finishes -/

theorem ppAllowed_congr (h : t.policies = s.policies) (sc : Score) (bm : Beatmap) :
    ppAllowed srv sc bm t = ppAllowed srv sc bm s := by
  unfold ppAllowed
  rw [State.policies_effectivePolicy h]

/-- A retried score that is committed is settled. -/
theorem settled_retry {u : Unit}
    (h : retryPp srv.toServer (srv.calculated a sid) sid s = (.ok u, t)) : Settled srv sid t := by
  obtain ⟨sc, bm, st, hsc, hbm, hset, hst, hdone⟩ := retryPp_rows h
  have hpolicies := policies_retryPp h
  rw [retryPp_eq hsc hbm hset hst hdone] at h
  have hbm' : s.beatmaps.row (sc.checked bm).beatmapId = some bm := by
    rw [beatmapId_checked]
    exact hbm
  have hdone' : (sc.checked bm).processed = true := by
    unfold Score.checked
    split <;> exact hdone
  have hrow : (rechecked s sid sc bm).scores.row sid = some (sc.checked bm) := by
    simp [rechecked, hsc]
  split at h
  · split at h
    · next w hw =>
      obtain ⟨-, rfl⟩ := Prod.mk.inj h
      obtain ⟨pp, hweq, hawarded⟩ := processScorePp_awarded hw
      refine ⟨{ sc.checked bm with pp := pp }, bm, ?_, ?_, hdone', ?_, fun _ => hawarded⟩
      · show w.scores.row sid = _
        rw [hweq]
        simp [hrow]
      · show w.beatmaps.row _ = _
        rw [hweq]
        exact hbm'
      · exact checked_processed (checked_checked sc bm) pp (sc.checked bm).processed
    · simp at h
  · next hoff =>
    obtain ⟨-, rfl⟩ := Prod.mk.inj h
    refine ⟨sc.checked bm, bm, hrow, hbm', hdone', checked_checked sc bm, fun hon => ?_⟩
    rw [ppAllowed_congr hpolicies] at hon
    unfold ppAllowed at hon
    rw [checked_checked, beatmapId_checked] at hon
    exact absurd hon hoff

/-- Whether the calculation is needed and fails does not depend on the rows. -/
theorem isSome_processScorePp {calculated : Option ℚ} {sc : Score} (s t : State) :
    (processScorePp srv.toServer calculated sid sc s).isSome =
      (processScorePp srv.toServer calculated sid sc t).isSome := by
  unfold processScorePp
  split <;> simp

/-- A finalised score whose PP is ready is settled. -/
theorem settled_finalize {u : Unit} {sc : Score} {bm : Beatmap} (hsc : s.scores.row sid = some sc)
    (hbm : s.beatmaps.row sc.beatmapId = some bm)
    (h : finalizeScore srv.toServer (srv.calculated a sid) sid s = (.ok u, t))
    (hready : ppReady srv a sid sc bm s = true) : Settled srv sid t := by
  have hpolicies := policies_finalizeScore h
  have hmaps : t.beatmaps = s.beatmaps := congrArg (·.2.1) hpolicies
  obtain ⟨sc', bm', st, hsc', hbm', -, -, ht⟩ := finalizeScore_ok h
  obtain rfl := Option.some.inj (hsc'.symm.trans hsc)
  obtain rfl := Option.some.inj (hbm'.symm.trans hbm)
  obtain ⟨v, hv⟩ : ∃ v, v = rechecked s sid sc' bm' := ⟨_, rfl⟩
  have hvrow : v.scores.row sid = some (sc'.checked bm') := by simp [hv, rechecked, hsc]
  have hvpolicies : v.policies = s.policies := by rw [hv]; rfl
  rw [processUser_eq] at ht
  dsimp only at ht
  rw [show ({ s with scores := s.scores.modify sid fun _ => sc'.checked bm' } : State) = v from
    hv.symm, State.policies_effectivePolicy hvpolicies, beatmapId_checked] at ht
  have hbmt : ∀ {sc : Score}, sc.beatmapId = sc'.beatmapId → t.beatmaps.row sc.beatmapId = some bm' := by
    rintro sc heq
    rw [hmaps, heq]
    exact hbm
  by_cases hon : ppAllowed srv sc' bm' s = true
  · unfold ppReady at hready
    unfold ppAllowed at hon
    simp only [hon, Bool.not_true, Bool.false_or] at hready
    rw [isSome_processScorePp s v] at hready
    obtain ⟨w, hw⟩ := Option.isSome_iff_exists.mp hready
    obtain ⟨pp, hweq, hawarded⟩ := processScorePp_awarded hw
    unfold awardPp at ht
    rw [if_pos hon, hw, Option.getD_some] at ht
    refine ⟨{ sc'.checked bm' with pp := pp, processed := true }, bm', ?_, hbmt ?_, rfl, ?_,
      fun _ => ?_⟩
    · rw [ht]
      show (w.scores.modify sid _).row sid = _
      rw [hweq]
      simp [hvrow]
    · exact beatmapId_checked sc' bm'
    · exact checked_processed (checked_checked sc' bm') pp true
    · rw [ht]
      exact hawarded
  · unfold ppAllowed at hon
    unfold awardPp at ht
    rw [if_neg hon] at ht
    refine ⟨{ sc'.checked bm' with processed := true }, bm', ?_, hbmt ?_, rfl, ?_, fun hallowed => ?_⟩
    · rw [ht]
      show (v.scores.modify sid _).row sid = _
      simp [hvrow]
    · exact beatmapId_checked sc' bm'
    · exact checked_processed (checked_checked sc' bm') (sc'.checked bm').pp true
    · rw [ppAllowed_congr hpolicies] at hallowed
      unfold ppAllowed at hallowed
      rw [checked_processed (checked_checked sc' bm') (sc'.checked bm').pp true] at hallowed
      exact absurd (by rwa [← beatmapId_checked sc' bm']) hon

theorem finalizeScore_runs {calculated : Option ℚ} {sc : Score} {bm : Beatmap} {st : UserStatistics}
    (hsc : s.scores.row sid = some sc) (hbm : s.beatmaps.row sc.beatmapId = some bm)
    (hset : s.sets bm.setId = true) (hst : s.stats sc.key.userMode = some st)
    (hnew : sc.processed = false)
    (htoken : (s.tokens.find fun t => t.scoreId == some sid).isNone = false) :
    finalizeScore srv.toServer calculated sid s =
      (.ok (), (finalizeScore srv.toServer calculated sid s).2) := by
  refine ok_of_isOk ?_
  simp [finalizeScore, bind, Txn.bind, require, refuse, write, hsc, hbm, hset, hst, hnew, htoken,
    Except.isOk, Except.toBool]

/-- What a pass does: nothing, a finalisation or a retry. -/
theorem passOver_cases (srv : Service) (a : Attempt) (sid : ScoreId) (s : State) :
    ((passOver srv a sid s).2 = s ∧ (passOver srv a sid s).1 ≠ .finished) ∨
    (∃ sc bm, s.scores.row sid = some sc ∧ s.beatmaps.row sc.beatmapId = some bm ∧
      finalizeScore srv.toServer (srv.calculated a sid) sid s = (.ok (), (passOver srv a sid s).2) ∧
      ((passOver srv a sid s).1 = .finished → ppReady srv a sid sc bm s = true)) ∨
    retryPp srv.toServer (srv.calculated a sid) sid s = (.ok (), (passOver srv a sid s).2) := by
  unfold passOver
  split
  · exact .inl ⟨rfl, by simp⟩
  split
  · exact .inl ⟨rfl, by simp⟩
  next sc hsc =>
  split
  · exact .inl ⟨rfl, by simp⟩
  next bm hbm =>
  split
  · exact .inl ⟨rfl, by simp⟩
  next hset =>
  split
  · exact .inl ⟨rfl, by simp⟩
  next hst =>
  obtain ⟨st, hst⟩ : ∃ st, s.stats sc.key.userMode = some st :=
    Option.ne_none_iff_exists'.mp (by simpa using hst)
  have hset : s.sets bm.setId = true := by simpa using hset
  split
  · next hnew =>
    split
    · exact .inl ⟨rfl, by simp⟩
    · next htoken =>
      refine .inr (.inl ⟨sc, bm, hsc, hbm, finalizeScore_runs hsc hbm hset hst hnew
        ((Bool.not_eq_true _).mp htoken), ?_⟩)
      intro hfinished
      by_contra hno
      simp [hno] at hfinished
  · split
    · next t hrun => exact .inr (.inr hrun)
    · refine .inl ⟨rfl, ?_⟩
      split <;> simp

/-- **A pass that finishes** leaves its score settled. -/
theorem settled_passOver (h : (passOver srv a sid s).1 = .finished) :
    Settled srv sid (passOver srv a sid s).2 := by
  rcases passOver_cases srv a sid s with ⟨-, hne⟩ | ⟨sc, bm, hsc, hbm, hrun, hready⟩ | hrun
  · exact absurd h hne
  · exact settled_finalize hsc hbm hrun (hready h)
  · exact settled_retry hrun

/-! ## What keeps a score settled -/

/-- No PP best of a map gets worse. -/
def PpGrows (s t : State) : Prop :=
  ∀ k row, s.ppBest k = some row → ∃ row', t.ppBest k = some row' ∧ row.pp ≤ row'.pp

theorem PpGrows.of_eq (h : t.ppBest = s.ppBest) : PpGrows s t :=
  fun _ row hrow => ⟨row, by rw [h]; exact hrow, le_rfl⟩

theorem Awarded.mono {sc : Score} {best best' : MapKey → Option PpRow}
    (hgrows : ∀ k row, best k = some row → ∃ row', best' k = some row' ∧ row.pp ≤ row'.pp)
    (h : Awarded srv sid sc best) : Awarded srv sid sc best' := by
  unfold Awarded at h ⊢
  split
  · next hcan =>
    rw [if_pos hcan] at h
    obtain ⟨hzero, row, hrow, hle⟩ := h
    obtain ⟨row', hrow', hle'⟩ := hgrows _ row hrow
    exact ⟨hzero, row', hrow', hle.trans hle'⟩
  · next hcan => rwa [if_neg hcan] at h

theorem Settled.mono (hs : Settled srv sid s)
    (hrow : ∀ sc, s.scores.row sid = some sc → sc.processed = true → t.scores.row sid = some sc)
    (hpolicies : t.policies = s.policies) (hgrows : PpGrows s t) : Settled srv sid t := by
  obtain ⟨sc, bm, hsc, hbm, hdone, hchecked, hawarded⟩ := hs
  have hmaps : t.beatmaps = s.beatmaps := congrArg (·.2.1) hpolicies
  refine ⟨sc, bm, hrow sc hsc hdone, by rw [hmaps]; exact hbm, hdone, hchecked, fun hallowed => ?_⟩
  rw [ppAllowed_congr hpolicies] at hallowed
  exact (hawarded hallowed).mono hgrows

/-- A map is fetched that was not there. -/
theorem Settled.fetch (hs : Settled srv sid s) {b : BeatmapId} {u : Upstream} {r : Unit}
    (h : fetchBeatmap b u s = (.ok r, t)) : Settled srv sid t := by
  simp only [fetchBeatmap, bind_ok, refuse_ok, write_ok] at h
  obtain ⟨_, _, ⟨hnew, rfl⟩, _, _, rfl, rfl⟩ := h
  obtain ⟨sc, bm, hsc, hbm, hdone, hchecked, hawarded⟩ := hs
  refine ⟨sc, bm, hsc, ?_, hdone, hchecked, hawarded⟩
  have hne : sc.beatmapId ≠ b := by
    rintro rfl
    simp [hbm] at hnew
  simpa [State.putBeatmap, hne] using hbm

theorem grows_processScorePp {calculated : Option ℚ} {sc : Score}
    (h : processScorePp srv.toServer calculated sid sc s = some t) : PpGrows s t := by
  unfold processScorePp at h
  split at h
  · rw [← Option.some.inj h]
    exact .of_eq rfl
  · obtain ⟨pp, -, rfl⟩ := Option.map_eq_some_iff.mp h
    unfold placePpBest
    split
    · next hless =>
      intro k row hrow
      by_cases hk : k = sc.key
      · subst hk
        refine ⟨_, Function.update_self .., ?_⟩
        have hless : ((s.ppBest sc.key).all fun previous => decide (previous.pp < pp)) = true := hless
        rw [hrow] at hless
        exact le_of_lt (by simpa using hless)
      · exact ⟨row, (Function.update_of_ne hk ..).trans hrow, le_rfl⟩
    · exact .of_eq rfl

theorem grows_awardPp {calculated : Option ℚ} {id : ScoreId} {sc : Score}
    {policy : EffectivePolicy} :
    PpGrows s (awardPp srv.toServer calculated id sc policy s) := by
  unfold awardPp
  split
  · cases hpp : processScorePp srv.toServer calculated id sc s with
    | none => exact .of_eq rfl
    | some t => exact grows_processScorePp hpp
  · exact .of_eq rfl

/-- The finalisation of a score that is not processed changes no other score. -/
theorem Settled.finalize (hs : Settled srv sid s) {calculated : Option ℚ} {id : ScoreId} {u : Unit}
    (h : finalizeScore srv.toServer calculated id s = (.ok u, t)) : Settled srv sid t := by
  have hpolicies := policies_finalizeScore h
  obtain ⟨sc', bm, st, hsc', -, -, hnew, ht⟩ := finalizeScore_ok h
  rw [processUser_eq, show ({ s with scores := s.scores.modify id fun _ => sc'.checked bm } : State) =
    rechecked s id sc' bm from rfl] at ht
  dsimp only at ht
  obtain ⟨pp, haward, -⟩ := awardPp_eq srv.toServer calculated id (sc'.checked bm)
    (State.effectivePolicy (rechecked s id sc' bm) (sc'.checked bm).beatmapId bm)
    (rechecked s id sc' bm)
  refine hs.mono (fun sc hsc hdone => ?_) hpolicies ?_
  · have hne : sid ≠ id := by
      rintro rfl
      rw [Option.some.inj (hsc.symm.trans hsc'), hnew] at hdone
      simp at hdone
    rw [ht]
    show ((awardPp srv.toServer calculated id (sc'.checked bm) _ (rechecked s id sc' bm)).scores.modify
      id _).row sid = some sc
    rw [haward]
    simp [rechecked, hne, hsc]
  · rw [ht]
    exact grows_awardPp (s := rechecked s id sc' bm)

/-- A retry of another score. -/
theorem Settled.retry (hs : Settled srv sid s) {calculated : Option ℚ} {id : ScoreId} {u : Unit}
    (h : retryPp srv.toServer calculated id s = (.ok u, t)) (hne : sid ≠ id) :
    Settled srv sid t := by
  have hpolicies := policies_retryPp h
  obtain ⟨sc', bm, st, hsc', hbm, hset, hst, hdone⟩ := retryPp_rows h
  rw [retryPp_eq hsc' hbm hset hst hdone] at h
  split at h
  · split at h
    · next w hw =>
      obtain ⟨-, rfl⟩ := Prod.mk.inj h
      obtain ⟨pp, hweq, -⟩ := processScorePp_some hw
      have hgrows : PpGrows s w := grows_processScorePp (s := rechecked s id sc' bm) hw
      refine hs.mono (fun sc hsc _ => ?_) hpolicies hgrows
      show w.scores.row sid = some sc
      rw [hweq]
      simp [rechecked, hne, hsc]
    · simp at h
  · obtain ⟨-, rfl⟩ := Prod.mk.inj h
    refine hs.mono (fun sc hsc _ => ?_) hpolicies (.of_eq rfl)
    simp [rechecked, hne, hsc]

/-- The requests of players keep a score settled. -/
theorem Settled.step (hs : Settled srv sid s) {e : Scores.Event}
    (h : Scores.Step srv.toDeployment s e t) (hplay : e.isPlay = true ∨ ∃ b u, e = .fetch b u)
    (hworker : ∀ c id, e ≠ .retry c id) : Settled srv sid t := by
  obtain ⟨u, hrun⟩ := h
  cases e with
  | register uid mode =>
    simp only [serve, bind_ok, refuse_ok, write_ok] at hrun
    obtain ⟨_, _, ⟨-, rfl⟩, rfl⟩ := hrun
    exact hs.mono (fun _ hsc _ => hsc) rfl (.of_eq rfl)
  | createSolo now uid b checksum version =>
    simp only [serve, createSoloScore, bind_ok, refuse_ok, read_ok, write_ok, pure_ok] at hrun
    obtain ⟨_, _, ⟨_, _, ⟨-, rfl⟩, _, _, ⟨rfl, rfl⟩, _, _, rfl, rfl, rfl⟩, -, rfl⟩ := hrun
    exact hs.mono (fun _ hsc _ => hsc) rfl (.of_eq rfl)
  | createPlaylist now roomId itemId uid b checksum version =>
    simp only [serve, createPlaylistScore, bind_ok, refuse_ok, read_ok, write_ok, pure_ok] at hrun
    obtain ⟨_, _, ⟨_, _, ⟨-, rfl⟩, _, _, ⟨-, rfl⟩, _, _, ⟨rfl, rfl⟩, _, _, rfl, rfl, rfl⟩, -,
      rfl⟩ := hrun
    exact hs.mono (fun _ hsc _ => hsc) rfl (.of_eq rfl)
  | submitSolo now uid tokenId info =>
    simp only [serve, bind_ok, pure_ok] at hrun
    obtain ⟨⟨sid, created⟩, _, hsub, -, rfl⟩ := hrun
    obtain ⟨token, -, -, hcases⟩ := submitScore_ok hsub
    rcases hcases with ⟨-, -, rfl⟩ | ⟨-, -, -, bm, mode, info', -, -, rfl⟩
    · exact hs
    · exact hs.mono (fun _ hsc _ => Table.row_insert_of_some hsc) rfl (.of_eq rfl)
  | submitPlaylist now view roomId itemId uid tokenId info =>
    obtain ⟨token, -, -, -, -, hcases⟩ := submitPlaylistScore_ok hrun
    rcases hcases with ⟨-, rfl⟩ | ⟨-, bm, mode, info', -, -, sc, -, rfl⟩
    · exact hs
    · exact hs.mono (fun _ hsc _ => Table.row_insert_of_some hsc) rfl (.of_eq rfl)
  | finalize calculated id => exact hs.finalize hrun
  | retry calculated id => exact absurd rfl (hworker calculated id)
  | fetch b u => exact hs.fetch hrun
  | _ => exact absurd hplay (by simp [Event.isPlay])

end Soms.Retries
