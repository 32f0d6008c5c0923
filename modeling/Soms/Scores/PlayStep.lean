import Soms.Scores.Plays

/-!
# What a step does to the plays

One lemma for each event says what its transaction does to the tables of
`Soms.Scores.Plays`; `Step.plays` collects them, and the laws of submission are
proved from its cases.
-/

namespace Soms.Scores

open Txn

/-! ## Submission -/

/-- The score that a submission adds belongs to its token. -/
structure Score.OfToken (sc : Score) (token : ScoreToken) : Prop where
  userId : sc.userId = token.userId
  beatmapId : sc.beatmapId = token.beatmapId
  mapMd5 : sc.mapMd5 = token.beatmapChecksum
  roomId : sc.roomId = token.roomId
  playlistItemId : sc.playlistItemId = token.playlistItemId
  processed : sc.processed = false

theorem newScore_ofToken (srv : Server) (now : Time) (token : ScoreToken) (mode : GameMode)
    (bm : Beatmap) (policy : EffectivePolicy) (info : SubmissionInfo) :
    (newScore srv now token mode bm policy info).OfToken token := by
  unfold newScore
  dsimp only
  split
  · split <;> exact ⟨rfl, rfl, rfl, rfl, rfl, rfl⟩
  · exact ⟨rfl, rfl, rfl, rfl, rfl, rfl⟩

/-- A score that is eligible for a feature was granted it on the current chart. -/
theorem newScore_eligible (srv : Server) (now : Time) (token : ScoreToken) (mode : GameMode)
    (bm : Beatmap) (policy : EffectivePolicy) (info : SubmissionInfo) (f : Feature) :
    (newScore srv now token mode bm policy info).eligible f =
      (token.beatmapChecksum == bm.checksum && srv.grants policy f) := by
  unfold newScore
  dsimp only
  split
  · split <;> cases f <;> rfl
  · cases f <;> rfl

/-- The tables after a token was consumed by a new score. -/
def State.linked (s : State) (tokenId : TokenId) (sc : Score) : State :=
  { s with
    scores := s.scores.insert sc
    tokens := s.tokens.modify tokenId fun t => { t with scoreId := some s.scores.next } }

/-- A submission creates a score for an unused token, or finds that of a used one. -/
theorem submitScore_ok {srv : Server} {now : Time} {uid : UserId} {tokenId : TokenId}
    {info : SubmissionInfo} {s t : State} {sid : ScoreId} {created : Bool}
    (h : submitScore srv now uid tokenId info s = (.ok (sid, created), t)) :
    ∃ token, s.tokens.row tokenId = some token ∧ token.userId = uid ∧
      ((created = false ∧ token.scoreId = some sid ∧ t = s) ∨
        created = true ∧ token.scoreId = none ∧ sid = s.scores.next ∧
          ∃ bm mode info', s.beatmaps.row token.beatmapId = some bm ∧ s.sets bm.setId = true ∧
            t = s.linked tokenId (newScore srv now token mode bm
              (s.effectivePolicy token.beatmapId bm) info')) := by
  simp only [submitScore, bind_ok, require_ok, refuse_ok, not_not] at h
  obtain ⟨token, s₁, ⟨htoken, rfl⟩, _, s₂, ⟨huid, rfl⟩, h⟩ := h
  refine ⟨token, htoken, huid, ?_⟩
  cases hsid : token.scoreId with
  | some sid' =>
    simp only [hsid, bind_ok, refuse_ok, pure_ok, Prod.mk.injEq] at h
    obtain ⟨_, s₃, ⟨-, rfl⟩, ⟨rfl, rfl⟩, rfl⟩ := h
    exact .inl ⟨rfl, rfl, rfl⟩
  | none =>
    simp only [hsid, bind_ok, refuse_ok, pure_ok, write_ok, read_ok, require_ok, processScore,
      Prod.mk.injEq] at h
    obtain ⟨_, s₃, ⟨-, rfl⟩, sid', s₄, ⟨base, s₅, ⟨-, rfl⟩, bm, s₆, ⟨hbm, rfl⟩, _, s₇,
      ⟨hset, rfl⟩, policy, s₈, ⟨rfl, rfl⟩, next, s₉, ⟨rfl, rfl⟩, _, s₁₀, rfl, rfl, rfl⟩, _, s₁₁,
      rfl, ⟨rfl, rfl⟩, rfl⟩ := h
    exact .inr ⟨rfl, rfl, rfl, bm, _, _, hbm, by simpa using hset, rfl⟩

/-- The playlist endpoint takes the tokens of its room and item, and counts an
attempt for a score that is created. -/
theorem submitPlaylistScore_ok {srv : Server} {now : Time} {view : RoomView} {roomId : RoomId}
    {itemId : ItemId} {uid : UserId} {tokenId : TokenId} {info : SubmissionInfo} {s t : State}
    {u : Unit}
    (h : submitPlaylistScore srv now view roomId itemId uid tokenId info s = (.ok u, t)) :
    ∃ token, s.tokens.row tokenId = some token ∧ token.userId = uid ∧
      token.roomId = some roomId ∧ token.playlistItemId = some itemId ∧
      (token.scoreId ≠ none ∧ t = s ∨ token.scoreId = none ∧
        ∃ bm mode info', s.beatmaps.row token.beatmapId = some bm ∧ s.sets bm.setId = true ∧
          ∃ sc, sc = newScore srv now token mode bm (s.effectivePolicy token.beatmapId bm) info' ∧
            t = updateItemAttempts roomId uid (processPlaylistBestScore roomId itemId uid
              s.scores.next sc.totalScore (s.linked tokenId sc))) := by
  simp only [submitPlaylistScore, bind_ok, refuse_ok, require_ok, not_not] at h
  obtain ⟨_, s₁, ⟨-, rfl⟩, _, s₂, ⟨-, rfl⟩, _, s₃, ⟨-, rfl⟩, token, s₄, ⟨htoken, rfl⟩, _, s₅,
    ⟨-, rfl⟩, _, s₆, ⟨hitem, rfl⟩, _, s₇, ⟨hroom, rfl⟩, _, s₈, ⟨-, rfl⟩, ⟨sid, created⟩, s₉, hsub,
    h⟩ := h
  obtain ⟨token', htoken', huid, hcases⟩ := submitScore_ok hsub
  obtain rfl := Option.some.inj (htoken.symm.trans htoken')
  refine ⟨token, htoken, huid, hroom, hitem, ?_⟩
  rcases hcases with ⟨rfl, hused, rfl⟩ | ⟨rfl, hnew, rfl, bm, mode, info', hbm, hset, rfl⟩
  · rcases when_ok.mp h with ⟨hfalse, -⟩ | ⟨-, rfl⟩
    · simp at hfalse
    · exact .inl ⟨by simp [hused], rfl⟩
  · rcases when_ok.mp h with ⟨-, h⟩ | ⟨hfalse, -⟩
    · simp only [bind_ok, require_ok, write_ok] at h
      obtain ⟨sc, s₁₀, ⟨hsc, rfl⟩, _, s₁₁, rfl, rfl⟩ := h
      have hsc' : sc = newScore srv now token mode bm (s.effectivePolicy token.beatmapId bm)
          info' := by
        simpa [State.linked] using hsc.symm
      exact .inr ⟨hnew, bm, mode, info', hbm, hset, sc, hsc', by rw [hsc']⟩
    · simp at hfalse

/-! ## Finalisation -/

/-- What `_process_score_pp` may write: the PP of the score, and its row as the
user's PP best of the map. -/
theorem processScorePp_some {srv : Server} {calculated : Option ℚ} {sid : ScoreId} {sc : Score}
    {s t : State} (h : processScorePp srv calculated sid sc s = some t) :
    ∃ pp : ℚ, t = { s with
        scores := s.scores.modify sid fun sc => { sc with pp := pp }
        ppBest := t.ppBest } ∧
      (t.ppBest = s.ppBest ∨
        t.ppBest = Function.update s.ppBest sc.key (some ⟨sid, pp, sc.accuracy⟩)) := by
  unfold processScorePp at h
  split at h
  · obtain rfl := Option.some.inj h
    exact ⟨0, rfl, .inl rfl⟩
  · obtain ⟨pp, -, rfl⟩ := Option.map_eq_some_iff.mp h
    unfold placePpBest
    split
    · exact ⟨pp, rfl, .inr rfl⟩
    · exact ⟨pp, rfl, .inl rfl⟩

/-- The state after the PP part of `process_user`. -/
def awardPp (srv : Server) (calculated : Option ℚ) (sid : ScoreId) (sc : Score)
    (policy : EffectivePolicy) (s : State) : State :=
  if sc.ranked && srv.grants policy .pp then (processScorePp srv calculated sid sc s).getD s
  else s

theorem awardPp_eq (srv : Server) (calculated : Option ℚ) (sid : ScoreId) (sc : Score)
    (policy : EffectivePolicy) (s : State) :
    ∃ pp : Score → ℚ, awardPp srv calculated sid sc policy s = { s with
        scores := s.scores.modify sid fun sc => { sc with pp := pp sc }
        ppBest := (awardPp srv calculated sid sc policy s).ppBest } ∧
      ((awardPp srv calculated sid sc policy s).ppBest = s.ppBest ∨
        (sc.ranked && srv.grants policy .pp) = true ∧ ∃ row : PpRow, row.scoreId = sid ∧
          (awardPp srv calculated sid sc policy s).ppBest =
            Function.update s.ppBest sc.key (some row)) := by
  have hsame : s = { s with scores := s.scores.modify sid fun sc => { sc with pp := sc.pp } } := by
    rw [Table.modify_id]
  unfold awardPp
  split
  · next hgrant =>
    cases hpp : processScorePp srv calculated sid sc s with
    | none => exact ⟨Score.pp, hsame, .inl rfl⟩
    | some t =>
      obtain ⟨pp, ht, hbest⟩ := processScorePp_some hpp
      exact ⟨fun _ => pp, ht, hbest.imp_right fun h => ⟨hgrant, _, rfl, h⟩⟩
  · exact ⟨Score.pp, hsame, .inl rfl⟩

theorem processUser_eq (srv : Server) (calculated : Option ℚ) (sid : ScoreId) (sc : Score)
    (bm : Beatmap) (st : UserStatistics) (s : State) :
    processUser srv calculated sid sc bm st s =
      let policy := s.effectivePolicy sc.beatmapId bm
      let t := processStatistics srv sid sc bm.totalLength policy st
        (awardPp srv calculated sid sc policy s)
      { t with scores := t.scores.modify sid fun sc => { sc with processed := true } } :=
  rfl

/-- A finalisation that is not skipped. -/
theorem finalizeScore_ok {srv : Server} {calculated : Option ℚ} {sid : ScoreId} {s t : State}
    {u : Unit} (h : finalizeScore srv calculated sid s = (.ok u, t)) :
    ∃ sc bm st, s.scores.row sid = some sc ∧ s.beatmaps.row sc.beatmapId = some bm ∧
      s.stats sc.key.userMode = some st ∧ sc.processed = false ∧
      t = processUser srv calculated sid (sc.checked bm) bm st
        { s with scores := s.scores.modify sid fun _ => sc.checked bm } := by
  simp only [finalizeScore, bind_ok, require_ok, refuse_ok, write_ok] at h
  obtain ⟨sc, s₁, ⟨hsc, rfl⟩, bm, s₂, ⟨hbm, rfl⟩, _, s₃, ⟨-, rfl⟩, st, s₄, ⟨hst, rfl⟩, _, s₅,
    ⟨hnew, rfl⟩, _, s₆, ⟨-, rfl⟩, _, s₇, rfl, rfl⟩ := h
  exact ⟨sc, bm, st, hsc, hbm, hst, by simpa using hnew, rfl⟩

/-- A retry of a processed score that is not skipped. -/
theorem retryPp_ok {srv : Server} {calculated : Option ℚ} {sid : ScoreId} {s t : State}
    {u : Unit} (h : retryPp srv calculated sid s = (.ok u, t)) :
    ∃ sc bm st, s.scores.row sid = some sc ∧ s.beatmaps.row sc.beatmapId = some bm ∧
      s.stats sc.key.userMode = some st ∧ sc.processed = true ∧
      ∃ v w, v = { s with scores := s.scores.modify sid fun _ => sc.checked bm } ∧
        (((sc.checked bm).ranked &&
            srv.grants (s.effectivePolicy sc.beatmapId bm) .pp) = false ∧ t = v ∨
          (((sc.checked bm).ranked &&
            srv.grants (s.effectivePolicy sc.beatmapId bm) .pp) = true ∧
          processScorePp srv calculated sid (sc.checked bm) v = some w ∧
          ∃ pp acc : ℚ, t = { w with
            stats := Function.update w.stats (sc.checked bm).key.userMode
              (some { st with pp := pp, hitAccuracy := acc }) })) := by
  simp only [retryPp, bind_ok, require_ok, refuse_ok, read_ok, write_ok] at h
  obtain ⟨sc, s₁, ⟨hsc, rfl⟩, bm, s₂, ⟨hbm, rfl⟩, _, s₃, ⟨-, rfl⟩, st, s₄, ⟨hst, rfl⟩, _, s₅,
    ⟨hdone, rfl⟩, policy, s₆, ⟨rfl, rfl⟩, _, s₇, rfl, h⟩ := h
  refine ⟨sc, bm, st, hsc, hbm, hst, by simpa using hdone, ?_⟩
  split at h
  · next hgrant =>
    simp only [bind_ok, require_ok, write_ok] at h
    obtain ⟨w, s₈, ⟨hw, rfl⟩, _, s₉, rfl, rfl⟩ := h
    exact ⟨_, w, rfl, .inr ⟨hgrant, hw, _, _, rfl⟩⟩
  · next hgrant =>
    obtain ⟨-, rfl⟩ := pure_ok.mp h
    exact ⟨_, s, rfl, .inl ⟨by simpa using hgrant, rfl⟩⟩

/-! ## The counters of a processed score -/

theorem tally_addPlaytime (settings : Settings) (sc : Score) (length : Nat)
    (st : UserStatistics) (x : Tally) :
    (st.addPlaytime sc length).tally x =
      st.tally x + match x with
        | .playCount => sc.tally settings length .playCount
        | .playTime => sc.tally settings length .playTime
        | _ => 0 := by
  unfold UserStatistics.addPlaytime
  dsimp only
  split
  · next hvalid =>
    cases x <;> simp [UserStatistics.tally, Score.tally, hvalid]
  · next hvalid =>
    cases x <;> simp [UserStatistics.tally, Score.tally, hvalid]

theorem tally_addHits (settings : Settings) (sc : Score) (length : Nat) (st : UserStatistics)
    (x : Tally) :
    (st.addHits sc).tally x =
      st.tally x + match x with
        | .totalScore | .playCount | .playTime => 0
        | x => sc.tally settings length x := by
  unfold UserStatistics.addHits
  dsimp only
  split
  · next hfruits =>
    cases x <;> simp [UserStatistics.tally, Score.tally, hfruits, Int.add_assoc]
  · next hfruits =>
    cases x <;> simp [UserStatistics.tally, Score.tally, hfruits]

/-- **What a processed score adds.** -/
theorem tally_statisticsAfter (settings : Settings) (sc : Score) (length : Nat)
    (previous : Option BestRow) (difference : Int) (counts ranked hasPp : Bool) (userPp : ℚ × ℚ)
    (st : UserStatistics) (x : Tally) :
    (statisticsAfter sc length previous (settings.displayScore sc) difference counts ranked hasPp
      userPp st).tally x = st.tally x + sc.tally settings length x := by
  have hpp : ∀ (u : UserStatistics) (p q : ℚ),
      ({ u with pp := p, hitAccuracy := q }).tally = u.tally := fun _ _ _ => rfl
  have hcombo : ∀ (u : UserStatistics) (n : Int), ({ u with maximumCombo := n }).tally = u.tally :=
    fun _ _ => rfl
  have htotal : ∀ (u : UserStatistics) (n : Int),
      ({ u with totalScore := u.totalScore + n }).tally x =
        u.tally x + match x with
          | .totalScore => n
          | _ => 0 := by
    intro u n
    cases x <;> simp [UserStatistics.tally]
  unfold statisticsAfter
  simp only [apply_ite UserStatistics.tally, hpp, ite_self]
  rw [tally_addHits settings sc length, tally_addPlaytime settings]
  simp only [apply_ite UserStatistics.tally, hcombo, UserStatistics.tally_creditBest, ite_self,
    htotal]
  cases x <;> simp [Score.tally]

namespace State

/-- The tables after a score was processed. -/
def finalized (s : State) (sid : ScoreId) (um : UserMode) (st : UserStatistics) : State :=
  { s with
    scores := s.scores.modify sid fun sc => { sc with processed := true }
    stats := Function.update s.stats um (some st) }

end State

theorem Score.key_checked (sc : Score) (bm : Beatmap) : (sc.checked bm).key = sc.key := by
  unfold Score.checked
  split <;> rfl

theorem Score.tally_checked (settings : Settings) (sc : Score) (bm : Beatmap) (length : Nat) :
    (sc.checked bm).tally settings length = sc.tally settings length := by
  unfold Score.checked
  split <;> rfl

/-- `_process_statistics` replaces the row of the user with one that has the score's
tally. -/
theorem processStatistics_stats (srv : Server) (sid : ScoreId) (sc : Score) (length : Nat)
    (policy : EffectivePolicy) (st : UserStatistics) (s : State) :
    ∃ st', (processStatistics srv sid sc length policy st s).stats =
        Function.update s.stats sc.key.userMode (some st') ∧
      ∀ x, st'.tally x = st.tally x + sc.tally srv.toSettings length x :=
  ⟨_, rfl, fun _ => tally_statisticsAfter ..⟩

theorem plays_finalizeScore {srv : Server} {calculated : Option ℚ} {sid : ScoreId} {s t : State}
    {u : Unit} (h : finalizeScore srv calculated sid s = (.ok u, t)) :
    ∃ sc bm st st', s.scores.row sid = some sc ∧ sc.processed = false ∧
      s.beatmaps.row sc.beatmapId = some bm ∧ s.stats sc.key.userMode = some st ∧
      (∀ x, st'.tally x = st.tally x + sc.tally srv.toSettings bm.totalLength x) ∧
      t.beatmaps = s.beatmaps ∧ t.plays = (s.finalized sid sc.key.userMode st').plays := by
  obtain ⟨sc, bm, st, hsc, hbm, hst, hnew, rfl⟩ := finalizeScore_ok h
  obtain ⟨v, hv⟩ : ∃ v, v = { s with scores := s.scores.modify sid fun _ => sc.checked bm } :=
    ⟨_, rfl⟩
  rw [← hv, processUser_eq]
  dsimp only
  obtain ⟨pp, haward, -⟩ := awardPp_eq srv calculated sid (sc.checked bm)
    (v.effectivePolicy (sc.checked bm).beatmapId bm) v
  obtain ⟨w, hw⟩ : ∃ w, w = awardPp srv calculated sid (sc.checked bm)
    (v.effectivePolicy (sc.checked bm).beatmapId bm) v := ⟨_, rfl⟩
  rw [← hw] at haward ⊢
  obtain ⟨st', hstats, htally⟩ := processStatistics_stats srv sid (sc.checked bm)
    bm.totalLength (v.effectivePolicy (sc.checked bm).beatmapId bm) st w
  rw [Score.key_checked] at hstats
  rw [Score.tally_checked] at htally
  refine ⟨sc, bm, st, st', hsc, hnew, hbm, hst, htally, ?_,
    State.plays_eq ?_ ?_ ?_ ?_ fun um => ?_⟩
  · show w.beatmaps = s.beatmaps
    rw [haward, hv]
  · show (w.scores.modify sid _).map _ = _
    rw [haward, hv]
    show (((s.scores.modify sid _).modify sid _).modify sid _).map _ = _
    rw [Table.modify_modify, Table.modify_modify]
    have hprocessed : (s.scores.modify sid fun sc => { sc with processed := true }).map Score.core =
        (s.scores.map Score.core).modify sid fun sc => { sc with processed := true } :=
      Table.map_modify _ _ _ _ _ fun a _ => rfl
    refine Eq.trans ?_ hprocessed.symm
    refine Table.map_modify _ _ _ _ _ fun a ha => ?_
    obtain rfl := Option.some.inj (hsc.symm.trans ha)
    show _ = { sc.core with processed := true }
    rw [← Score.core_checked sc bm]
    rfl
  · show w.tokens = s.tokens
    rw [haward, hv]
  · show w.playlistBest = s.playlistBest
    rw [haward, hv]
  · show w.itemAttempts = s.itemAttempts
    rw [haward, hv]
  · rw [show (State.finalized s sid sc.key.userMode st').stats =
      Function.update s.stats sc.key.userMode (some st') from rfl, hstats, haward, hv]

theorem plays_retryPp {srv : Server} {calculated : Option ℚ} {sid : ScoreId} {s t : State}
    {u : Unit} (h : retryPp srv calculated sid s = (.ok u, t)) : t.plays = s.plays := by
  obtain ⟨sc, bm, st, hsc, hbm, hst, -, v, w, rfl, hcases⟩ := retryPp_ok h
  have hcore : (s.scores.modify sid fun _ => sc.checked bm).map Score.core =
      s.scores.map Score.core := by
    refine Table.map_modify_of_eq _ _ _ _ fun a ha => ?_
    obtain rfl := Option.some.inj (hsc.symm.trans ha)
    exact Score.core_checked sc bm
  rcases hcases with ⟨-, rfl⟩ | ⟨-, hpp, p, q, rfl⟩
  · exact State.plays_eq hcore rfl rfl rfl fun um => rfl
  · obtain ⟨pp, hw, -⟩ := processScorePp_some hpp
    rw [hw, Score.key_checked]
    refine State.plays_eq ?_ rfl rfl rfl fun um => ?_
    · show ((s.scores.modify sid _).modify sid _).map _ = _
      rw [← hcore]
      exact Table.map_modify_of_eq _ _ _ _ fun a _ => rfl
    · show Option.map _ (Function.update s.stats sc.key.userMode _ um) = _
      by_cases hum : um = sc.key.userMode
      · subst hum
        rw [Function.update_self, hst]
        rfl
      · rw [Function.update_of_ne hum]

/-! ## Every step -/

/-- What a step does to the plays. -/
inductive PlayStep (srv : Deployment) (s : State) : Event → State → Prop
  | same {e : Event} {t : State} (hplays : t.plays = s.plays) : PlayStep srv s e t
  | register {uid : UserId} {mode : GameMode} {t : State} (hnew : s.stats (uid, mode) = none)
      (hplays : t.plays =
        { s with stats := Function.update s.stats (uid, mode) (some {}) }.plays) :
      PlayStep srv s (.register uid mode) t
  | createSolo {now : Time} {uid : UserId} {b : BeatmapId} {checksum : Checksum}
      {version : String} {t : State} {token : ScoreToken} (hnew : token.scoreId = none)
      (hroom : token.roomId = none)
      (hplays : t.plays = { s with tokens := s.tokens.insert token }.plays) :
      PlayStep srv s (.createSolo now uid b checksum version) t
  | createPlaylist {now : Time} {roomId : RoomId} {itemId : ItemId} {uid : UserId}
      {b : BeatmapId} {checksum : Checksum} {version : String} {t : State} {token : ScoreToken}
      (hnew : token.scoreId = none) (huid : token.userId = uid)
      (hroom : token.roomId = some roomId)
      (hplays : t.plays = { s with tokens := s.tokens.insert token }.plays) :
      PlayStep srv s (.createPlaylist now roomId itemId uid b checksum version) t
  | submitSolo {now : Time} {uid : UserId} {tokenId : TokenId} {info : SubmissionInfo}
      {t : State} {token : ScoreToken} {sc : Score} (htoken : s.tokens.row tokenId = some token)
      (hnew : token.scoreId = none) (hsc : sc.OfToken token)
      (hplays : t.plays = (s.linked tokenId sc).plays) :
      PlayStep srv s (.submitSolo now uid tokenId info) t
  | submitPlaylist {now : Time} {view : RoomView} {roomId : RoomId} {itemId : ItemId}
      {uid : UserId} {tokenId : TokenId} {info : SubmissionInfo} {t : State}
      {token : ScoreToken} {sc : Score} (htoken : s.tokens.row tokenId = some token)
      (huid : token.userId = uid) (hroom : token.roomId = some roomId)
      (hitem : token.playlistItemId = some itemId) (hnew : token.scoreId = none)
      (hsc : sc.OfToken token)
      (hplays : t.plays = (updateItemAttempts roomId uid (processPlaylistBestScore roomId itemId
        uid s.scores.next sc.totalScore (s.linked tokenId sc))).plays) :
      PlayStep srv s (.submitPlaylist now view roomId itemId uid tokenId info) t
  | finalize {calculated : Option ℚ} {sid : ScoreId} {t : State} {sc : Score} {bm : Beatmap}
      {st st' : UserStatistics} (hsc : s.scores.row sid = some sc)
      (hnew : sc.processed = false) (hbm : s.beatmaps.row sc.beatmapId = some bm)
      (hst : s.stats sc.key.userMode = some st)
      (htally : ∀ x, st'.tally x = st.tally x + sc.tally srv.toSettings bm.totalLength x)
      (hmaps : t.beatmaps = s.beatmaps)
      (hplays : t.plays = (s.finalized sid sc.key.userMode st').plays) :
      PlayStep srv s (.finalize calculated sid) t

/-- **What a step can do**, as far as plays go. -/
theorem Step.plays {srv : Deployment} {s t : State} {e : Event} (h : Step srv s e t) :
    PlayStep srv s e t := by
  obtain ⟨u, h⟩ := h
  cases e with
  | register uid mode =>
    simp only [serve, bind_ok, refuse_ok, write_ok] at h
    obtain ⟨_, s₁, ⟨hnew, rfl⟩, rfl⟩ := h
    exact .register (by simpa using hnew) rfl
  | fetch b v => exact .same ((leaves_fetchBeatmap b v).ok h)
  | createSolo now uid b checksum version =>
    simp only [serve, createSoloScore, bind_ok, refuse_ok, read_ok, write_ok, pure_ok] at h
    obtain ⟨_, s₁, ⟨_, s₂, ⟨-, rfl⟩, _, s₃, ⟨rfl, rfl⟩, _, s₄, rfl, rfl, rfl⟩, -, rfl⟩ := h
    exact .createSolo (by rfl) (by rfl) rfl
  | createPlaylist now roomId itemId uid b checksum version =>
    simp only [serve, createPlaylistScore, bind_ok, refuse_ok, read_ok, write_ok, pure_ok] at h
    obtain ⟨_, s₁, ⟨_, s₂, ⟨-, rfl⟩, _, s₃, ⟨-, rfl⟩, _, s₄, ⟨rfl, rfl⟩, _, s₅, rfl, rfl, rfl⟩,
      -, rfl⟩ := h
    exact .createPlaylist (by rfl) (by rfl) (by rfl) rfl
  | submitSolo now uid tokenId info =>
    simp only [serve, bind_ok, pure_ok] at h
    obtain ⟨⟨sid, created⟩, s₁, hsub, -, rfl⟩ := h
    obtain ⟨token, htoken, -, hcases⟩ := submitScore_ok hsub
    rcases hcases with ⟨-, -, rfl⟩ | ⟨-, hnew, -, bm, mode, info', -, -, rfl⟩
    · exact .same rfl
    · exact .submitSolo htoken hnew (newScore_ofToken ..) rfl
  | submitPlaylist now view roomId itemId uid tokenId info =>
    obtain ⟨token, htoken, huid, hroom, hitem, hcases⟩ := submitPlaylistScore_ok h
    rcases hcases with ⟨-, rfl⟩ | ⟨hnew, bm, mode, info', -, -, sc, rfl, rfl⟩
    · exact .same rfl
    · exact .submitPlaylist htoken huid hroom hitem hnew (newScore_ofToken ..) rfl
  | finalize calculated sid =>
    obtain ⟨sc, bm, st, st', hsc, hnew, hbm, hst, htally, hmaps, hplays⟩ :=
      plays_finalizeScore h
    exact .finalize hsc hnew hbm hst htally hmaps hplays
  | retry calculated sid => exact .same (plays_retryPp h)
  | applyRank setId b status leaderboardEnabled ppEnabled forceUnranked replace =>
    exact .same ((leaves_applyLocalRank ..).ok h)
  | unrank setId b replace => exact .same ((leaves_applyLocalUnrank ..).ok h)
  | clearRank setId b => exact .same ((leaves_clearLocalRank ..).ok h)
  | resolveEvent setId b =>
    exact .same ((leaves_resolveRankingEvent setId b).ok h)
  | sync setId b v => exact .same ((leaves_syncBeatmap ..).ok h)

/-! ## What was played -/

/-- What was played, without what becomes of it. -/
def Score.result (sc : Score) : Score := { sc.core with processed := false }

theorem Score.result_eq {a b : Score} (h : a.result = b.result) :
    a.passed = b.passed ∧ a.totalScore = b.totalScore := by
  have hpassed : a.result.passed = b.result.passed := by rw [h]
  have htotal : a.result.totalScore = b.result.totalScore := by rw [h]
  exact ⟨hpassed, htotal⟩

theorem State.result_of_plays {s t : State} (h : t.plays = s.plays) (sid : ScoreId) :
    (t.scores.row sid).map Score.result = (s.scores.row sid).map Score.result := by
  have hrow := congrArg (Option.map Score.result) (State.plays_row h sid)
  rw [Option.map_map, Option.map_map] at hrow
  exact hrow

/-- A step does not change what was played. -/
theorem PlayStep.result {srv : Deployment} {s t : State} {e : Event} (h : PlayStep srv s e t)
    {sid : ScoreId} {sc : Score} (hsc : s.scores.row sid = some sc) :
    (t.scores.row sid).map Score.result = some sc.result := by
  have hsame : (s.scores.row sid).map Score.result = some sc.result := by rw [hsc]; rfl
  have hlinked : ∀ sc', ((s.scores.insert sc').row sid).map Score.result = some sc.result := by
    intro sc'
    rw [← hsame, Table.row_insert_of_some hsc, hsc]
  cases h with
  | same hplays | register _ hplays | createSolo _ _ hplays | createPlaylist _ _ _ hplays =>
    exact (State.result_of_plays hplays sid).trans hsame
  | submitSolo _ _ _ hplays | submitPlaylist _ _ _ _ _ _ hplays =>
    exact (State.result_of_plays hplays sid).trans (hlinked _)
  | @finalize _ sid' _ sc' _ _ _ _ _ _ _ _ _ hplays =>
    refine (State.result_of_plays hplays sid).trans ?_
    rw [← hsame, State.finalized, Table.row_modify]
    split
    · rw [Option.map_map]
      rfl
    · rfl

end Soms.Scores
