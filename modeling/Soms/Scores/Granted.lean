import Soms.Scores.PolicyStep

/-!
# Grants that stay

A score that may get PP was granted it by the policy and for the checksum of its submission.  While
neither staff nor upstream change anything, these are the present ones.
-/

namespace Soms.Scores

open Txn

/-- Neither staff nor upstream change a map: plays, and maps that are fetched for the first time. -/
def Event.isQuiet : Event → Bool
  | .fetch .. => true
  | e => e.isPlay

/-- The score is the other one, perhaps without its eligibility. -/
structure Score.Weakens (sc sc₀ : Score) : Prop where
  beatmapId : sc.beatmapId = sc₀.beatmapId
  mapMd5 : sc.mapMd5 = sc₀.mapMd5
  ranked : sc.ranked = true → sc₀.ranked = true

theorem Score.Weakens.refl (sc : Score) : sc.Weakens sc := ⟨rfl, rfl, id⟩

theorem Score.Weakens.trans {a b c : Score} (hab : a.Weakens b) (hbc : b.Weakens c) :
    a.Weakens c :=
  ⟨hab.beatmapId.trans hbc.beatmapId, hab.mapMd5.trans hbc.mapMd5,
    fun h => hbc.ranked (hab.ranked h)⟩

theorem Score.checked_weakens (sc : Score) (bm : Beatmap) : (sc.checked bm).Weakens sc := by
  unfold Score.checked
  split
  · exact .refl sc
  · exact ⟨rfl, rfl, fun h => by cases h⟩

/-- Every row of the table weakens the one that was there. -/
def Weakened (u t : Table Score) : Prop :=
  ∀ sid sc, u.row sid = some sc → ∃ sc₀, t.row sid = some sc₀ ∧ sc.Weakens sc₀

theorem Weakened.refl (t : Table Score) : Weakened t t := fun _ sc h => ⟨sc, h, .refl sc⟩

theorem Weakened.modify {u t : Table Score} (h : Weakened u t) {k : ScoreId} {f : Score → Score}
    (hf : ∀ sc, u.row k = some sc → (f sc).Weakens sc) : Weakened (u.modify k f) t := by
  intro sid sc hrow
  rw [Table.row_modify] at hrow
  split at hrow
  · next hk =>
    subst hk
    obtain ⟨sc₁, hsc₁, rfl⟩ := Option.map_eq_some_iff.mp hrow
    obtain ⟨sc₀, hsc₀, hweak⟩ := h sid sc₁ hsc₁
    exact ⟨sc₀, hsc₀, (hf sc₁ hsc₁).trans hweak⟩
  · exact h sid sc hrow

/-- A score is checked against the present chart. -/
theorem Weakened.checked {t : Table Score} {sid : ScoreId} {sc : Score}
    (hsc : t.row sid = some sc) (bm : Beatmap) :
    Weakened (t.modify sid fun _ => sc.checked bm) t := by
  refine Weakened.modify (.refl t) fun sc₀ hsc₀ => ?_
  obtain rfl := Option.some.inj (hsc.symm.trans hsc₀)
  exact sc.checked_weakens bm

namespace State

/-- The policy and the checksum under which PP was granted are the present ones. -/
def Granted (srv : Server) (s : State) : Prop :=
  ∀ sid sc, s.scores.row sid = some sc → sc.ranked = true →
    ∃ bm, s.beatmaps.row sc.beatmapId = some bm ∧ sc.mapMd5 = bm.checksum ∧
      srv.grants (s.effectivePolicy sc.beatmapId bm) .pp = true

variable {srv : Server} {s t : State}

theorem Granted.weakened (hs : s.Granted srv) (hpolicies : t.policies = s.policies)
    (hscores : Weakened t.scores s.scores) : t.Granted srv := by
  intro sid sc hrow hranked
  obtain ⟨sc₀, hsc₀, hweak⟩ := hscores sid sc hrow
  obtain ⟨bm, hbm, hchecksum, hgrants⟩ := hs sid sc₀ hsc₀ (hweak.ranked hranked)
  have hmaps : t.beatmaps = s.beatmaps := congrArg (·.2.1) hpolicies
  rw [hweak.beatmapId, hweak.mapMd5, hmaps]
  exact ⟨bm, hbm, hchecksum, by rw [policies_effectivePolicy hpolicies]; exact hgrants⟩

/-- A score that is submitted carries what the present policy grants. -/
theorem Granted.linked (hs : s.Granted srv) {now : Time} {tokenId : TokenId} {token : ScoreToken}
    {mode : GameMode} {bm : Beatmap} {info : SubmissionInfo}
    (hbm : s.beatmaps.row token.beatmapId = some bm) :
    (s.linked tokenId (newScore srv now token mode bm
      (s.effectivePolicy token.beatmapId bm) info)).Granted srv := by
  intro sid sc hrow hranked
  have hrow : (s.scores.insert _).row sid = some sc := hrow
  rw [Table.row_insert] at hrow
  split at hrow
  · obtain rfl := Option.some.inj hrow
    have hof := newScore_ofToken srv now token mode bm (s.effectivePolicy token.beatmapId bm) info
    have heligible := newScore_eligible srv now token mode bm
      (s.effectivePolicy token.beatmapId bm) info .pp
    have hranked : (token.beatmapChecksum == bm.checksum &&
        srv.grants (s.effectivePolicy token.beatmapId bm) .pp) = true := heligible ▸ hranked
    obtain ⟨hchecksum, hgrants⟩ := Bool.and_eq_true_iff.mp hranked
    rw [hof.beatmapId, hof.mapMd5]
    exact ⟨bm, hbm, eq_of_beq hchecksum, hgrants⟩
  · exact hs sid sc hrow hranked

theorem Granted.finalizeScore (hs : s.Granted srv) {calculated : Option ℚ} {sid : ScoreId}
    {u : Unit} (h : finalizeScore srv calculated sid s = (.ok u, t)) : t.Granted srv := by
  refine hs.weakened (policies_finalizeScore h) ?_
  obtain ⟨sc, bm, st, hsc, -, -, -, rfl⟩ := finalizeScore_ok h
  rw [processUser_eq]
  obtain ⟨v, hv⟩ : ∃ v, v = { s with scores := s.scores.modify sid fun _ => sc.checked bm } :=
    ⟨_, rfl⟩
  rw [← hv]
  obtain ⟨pp, haward, -⟩ := awardPp_eq srv calculated sid (sc.checked bm)
    (v.effectivePolicy (sc.checked bm).beatmapId bm) v
  show Weakened ((awardPp srv calculated sid (sc.checked bm) _ v).scores.modify sid _) s.scores
  rw [haward, hv]
  have hpp : Weakened ((s.scores.modify sid fun _ => sc.checked bm).modify sid
      fun sc => { sc with pp := pp sc }) s.scores :=
    (Weakened.checked hsc bm).modify fun _ _ => ⟨rfl, rfl, id⟩
  exact hpp.modify fun _ _ => ⟨rfl, rfl, id⟩

theorem Granted.retryPp (hs : s.Granted srv) {calculated : Option ℚ} {sid : ScoreId} {u : Unit}
    (h : retryPp srv calculated sid s = (.ok u, t)) : t.Granted srv := by
  refine hs.weakened (policies_retryPp h) ?_
  obtain ⟨sc, bm, st, hsc, -, -, -, v, w, rfl, hcases⟩ := retryPp_ok h
  have hchecked := Weakened.checked hsc bm
  rcases hcases with ⟨-, rfl⟩ | ⟨-, hpp, p, q, rfl⟩
  · exact hchecked
  · obtain ⟨pp, hw, -⟩ := processScorePp_some hpp
    show Weakened w.scores s.scores
    rw [hw]
    exact hchecked.modify fun _ _ => ⟨rfl, rfl, id⟩

end State

/-- A quiet step keeps the grants. -/
theorem Step.granted {srv : Deployment} {s t : State} {e : Event} (h : Step srv s e t)
    (hquiet : e.isQuiet = true) (hs : s.Granted srv.toServer) : t.Granted srv.toServer := by
  -- a transaction that leaves the scores and the policies alone
  have hidle : ∀ {t : State}, t.policies = s.policies → t.scores = s.scores →
      t.Granted srv.toServer := fun hpolicies hscores =>
    hs.weakened hpolicies (hscores ▸ .refl s.scores)
  obtain ⟨u, h⟩ := h
  cases e with
  | register uid mode =>
    simp only [serve, bind_ok, refuse_ok, write_ok] at h
    obtain ⟨_, _, ⟨-, rfl⟩, rfl⟩ := h
    exact hidle rfl rfl
  | fetch b v =>
    simp only [serve, fetchBeatmap, bind_ok, refuse_ok, write_ok] at h
    obtain ⟨_, _, ⟨hnew, rfl⟩, _, _, rfl, rfl⟩ := h
    intro sid sc hrow hranked
    obtain ⟨bm, hbm, hchecksum, hgrants⟩ := hs sid sc hrow hranked
    refine ⟨bm, ?_, hchecksum, hgrants⟩
    show (s.beatmaps.put b v.row).row sc.beatmapId = some bm
    rw [Catalog.row_put, if_neg, hbm]
    intro hb
    rw [hb] at hbm
    rw [hbm] at hnew
    exact hnew rfl
  | createSolo now uid b checksum version =>
    simp only [serve, createSoloScore, bind_ok, refuse_ok, read_ok, write_ok, pure_ok] at h
    obtain ⟨_, _, ⟨_, _, ⟨-, rfl⟩, _, _, ⟨rfl, rfl⟩, _, _, rfl, rfl, rfl⟩, -, rfl⟩ := h
    exact hidle rfl rfl
  | createPlaylist now roomId itemId uid b checksum version =>
    simp only [serve, createPlaylistScore, bind_ok, refuse_ok, read_ok, write_ok, pure_ok] at h
    obtain ⟨_, _, ⟨_, _, ⟨-, rfl⟩, _, _, ⟨-, rfl⟩, _, _, ⟨rfl, rfl⟩, _, _, rfl, rfl, rfl⟩, -,
      rfl⟩ := h
    exact hidle rfl rfl
  | submitSolo now uid tokenId info =>
    simp only [serve, bind_ok, pure_ok] at h
    obtain ⟨⟨sid, created⟩, _, hsub, -, rfl⟩ := h
    obtain ⟨token, -, -, hcases⟩ := submitScore_ok hsub
    rcases hcases with ⟨-, -, rfl⟩ | ⟨-, -, -, bm, mode, info', hbm, -, rfl⟩
    · exact hs
    · exact hs.linked hbm
  | submitPlaylist now view roomId itemId uid tokenId info =>
    obtain ⟨token, -, -, -, -, hcases⟩ := submitPlaylistScore_ok h
    rcases hcases with ⟨-, rfl⟩ | ⟨-, bm, mode, info', hbm, -, sc, rfl, rfl⟩
    · exact hs
    · have hlinked : (s.linked tokenId (newScore srv.toServer now token mode bm
          (s.effectivePolicy token.beatmapId bm) info')).Granted srv.toServer := hs.linked hbm
      exact hlinked
  | finalize calculated sid => exact hs.finalizeScore h
  | retry calculated sid => exact hs.retryPp h
  | applyRank _ _ _ _ _ _ _ => cases hquiet
  | unrank _ _ _ => cases hquiet
  | clearRank _ _ => cases hquiet
  | resolveEvent _ _ => cases hquiet
  | sync _ _ _ => cases hquiet

/-- **While nothing changes, PP was granted under the present policies.** -/
theorem Runs.granted {srv : Deployment} {h : List (Event × State)} {s : State}
    (hrun : Runs srv (fun _ e => e.isQuiet = true) h s) : s.Granted srv.toServer :=
  hrun.toRun.invariant (fun _ _ _ hs hquiet hstep => hstep.granted hquiet hs)
    fun _ _ hrow => by cases hrow

end Soms.Scores
