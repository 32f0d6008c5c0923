import Soms.Scores.PlayStep

/-!
# The limit of attempts in a room

`create_playlist_score` compares the counted attempts with the limit of the room,
and nothing does when the score arrives: an unused token is worth an attempt for
ever.
-/

namespace Soms.Scores

open Txn

namespace State

/-- `ItemAttemptsCount.attempts` of the user in the room. -/
def attemptsIn (s : State) (roomId : RoomId) (uid : UserId) : Nat :=
  (s.itemAttempts roomId uid).elim 0 (·.attempts)

/-- No user has more attempts in a room than it allows. -/
def WithinLimits (srv : Deployment) (s : State) : Prop :=
  ∀ roomId n, srv.maxAttempts roomId = some n → ∀ uid, s.attemptsIn roomId uid ≤ n

/-- The counted attempts are those of the best rows, of which there is one for an item. -/
structure AttemptsSummed (s : State) : Prop where
  once : ∀ roomId uid, ((s.playlistBest roomId uid).map (·.playlistId)).Nodup
  summed : ∀ roomId uid,
    s.attemptsIn roomId uid = ((s.playlistBest roomId uid).map (·.attempts)).sum

end State

/-- A score that goes to the room on an unused token finds an attempt left. -/
def AttemptLeft (srv : Deployment) (s : State) : Event → Prop
  | .submitPlaylist _ _ roomId _ uid tokenId _ => ∀ token n,
      s.tokens.row tokenId = some token → token.scoreId = none →
        srv.maxAttempts roomId = some n → s.attemptsIn roomId uid < n
  | _ => True

/-! ## One more attempt -/

/-- The best rows after an attempt on the item. -/
theorem attempted_rows {itemId : ItemId} {f : PlaylistBest → PlaylistBest}
    (hf : ∀ row, (f row).playlistId = row.playlistId ∧ (f row).attempts = row.attempts + 1)
    (new : PlaylistBest) (hnew : new.playlistId = itemId ∧ new.attempts = 1)
    {rows : List PlaylistBest} (honce : (rows.map (·.playlistId)).Nodup) :
    let rows' := if rows.any (·.playlistId == itemId) then
        rows.map fun row => if row.playlistId = itemId then f row else row
      else rows ++ [new]
    (rows'.map (·.playlistId)).Nodup ∧
      (rows'.map (·.attempts)).sum = (rows.map (·.attempts)).sum + 1 := by
  dsimp only
  split
  · next hany =>
    have hids : (rows.map fun row => if row.playlistId = itemId then f row else row).map
        (·.playlistId) = rows.map (·.playlistId) := by
      rw [List.map_map]
      refine List.map_congr_left fun row _ => ?_
      by_cases hrow : row.playlistId = itemId <;> simp [hrow, (hf row).1]
    have hmem : itemId ∈ rows.map (·.playlistId) := by
      obtain ⟨row, hmem, hrow⟩ := List.any_eq_true.mp hany
      exact List.mem_map.mpr ⟨row, hmem, by simpa using hrow⟩
    refine ⟨by rw [hids]; exact honce, ?_⟩
    clear hany hids
    induction rows with
    | nil => simp at hmem
    | cons row rows ih =>
      simp only [List.map_cons, List.nodup_cons, List.mem_cons, List.sum_cons] at honce hmem ⊢
      by_cases hrow : row.playlistId = itemId
      · have hrest : ∀ row' ∈ rows, (if row'.playlistId = itemId then f row' else row') = row' := by
          intro row' hrow'
          refine if_neg ?_
          rintro heq
          exact honce.1 (hrow ▸ heq ▸ List.mem_map_of_mem hrow')
        rw [if_pos hrow, (hf row).2, List.map_congr_left hrest, List.map_id']
        omega
      · rw [if_neg hrow, ih honce.2 (hmem.resolve_left fun h => hrow h.symm)]
        omega
  · next hany =>
    have hfresh : itemId ∉ rows.map (·.playlistId) := by
      intro hmem
      obtain ⟨row, hmem, hrow⟩ := List.mem_map.mp hmem
      exact hany (List.any_eq_true.mpr ⟨row, hmem, by simpa using hrow⟩)
    constructor
    · rw [List.map_append, List.map_singleton, hnew.1]
      exact honce.append (List.nodup_singleton _) (by simpa using hfresh)
    · simp [hnew.2]

namespace State.AttemptsSummed

variable {s t : State}

theorem congr (h : t.plays = s.plays) (hsum : s.AttemptsSummed) : t.AttemptsSummed := by
  have hbest : t.playlistBest = s.playlistBest := congrArg (·.2.2.1) h
  have hitems : t.itemAttempts = s.itemAttempts := congrArg (·.2.2.2.1) h
  constructor
  · rw [hbest]
    exact hsum.once
  · intro roomId uid
    rw [attemptsIn, hitems, hbest]
    exact hsum.summed roomId uid

/-- **One more attempt**, and only for the user in the room. -/
theorem counted (hsum : s.AttemptsSummed) (roomId : RoomId) (itemId : ItemId) (uid : UserId)
    (sid : ScoreId) (total : Nat)
    (ht : t = updateItemAttempts roomId uid
      (processPlaylistBestScore roomId itemId uid sid total s)) :
    t.AttemptsSummed ∧ ∀ roomId' uid', t.attemptsIn roomId' uid' =
      s.attemptsIn roomId' uid' + if roomId' = roomId ∧ uid' = uid then 1 else 0 := by
  obtain ⟨rows, hrows⟩ : ∃ rows, t.playlistBest roomId uid = rows := ⟨_, rfl⟩
  have hattempted : (rows.map (·.playlistId)).Nodup ∧ (rows.map (·.attempts)).sum =
      ((s.playlistBest roomId uid).map (·.attempts)).sum + 1 := by
    subst ht hrows
    have hself : (updateItemAttempts roomId uid
        (processPlaylistBestScore roomId itemId uid sid total s)).playlistBest roomId uid = _ :=
      (congrFun (Function.update_self roomId _ s.playlistBest) uid).trans
        (Function.update_self uid _ _)
    rw [hself]
    refine attempted_rows (fun row => ?_) ⟨itemId, sid, total, 1⟩ ⟨rfl, rfl⟩
      (hsum.once roomId uid)
    split <;> exact ⟨rfl, rfl⟩
  have hbest : ∀ roomId' uid', t.playlistBest roomId' uid' =
      if roomId' = roomId ∧ uid' = uid then rows else s.playlistBest roomId' uid' := by
    intro roomId' uid'
    split
    · next heq => rw [heq.1, heq.2, hrows]
    · next hne =>
      subst ht
      show Function.update s.playlistBest roomId _ roomId' uid' = _
      by_cases hroom : roomId' = roomId
      · subst hroom
        simp [show uid' ≠ uid from fun huid => hne ⟨rfl, huid⟩]
      · simp [hroom]
  have hitems : ∀ roomId' uid', t.attemptsIn roomId' uid' =
      if roomId' = roomId ∧ uid' = uid then (rows.map (·.attempts)).sum
      else s.attemptsIn roomId' uid' := by
    obtain ⟨agg, hagg, hitems⟩ : ∃ agg : ItemAttempts, agg.attempts = (rows.map (·.attempts)).sum ∧
        t.itemAttempts = Function.update s.itemAttempts roomId
          (Function.update (s.itemAttempts roomId) uid (some agg)) := by
      subst ht hrows
      exact ⟨_, rfl, rfl⟩
    intro roomId' uid'
    rw [attemptsIn, hitems]
    by_cases hroom : roomId' = roomId
    · subst hroom
      by_cases huid : uid' = uid
      · simp [huid, hagg]
      · simp [huid, attemptsIn]
    · simp [hroom, attemptsIn]
  refine ⟨⟨fun roomId' uid' => ?_, fun roomId' uid' => ?_⟩, fun roomId' uid' => ?_⟩
  · rw [hbest]
    split
    · exact hattempted.1
    · exact hsum.once roomId' uid'
  · rw [hbest, hitems]
    split
    · rfl
    · exact hsum.summed roomId' uid'
  · rw [hitems]
    split
    · next heq => rw [hattempted.2, heq.1, heq.2, hsum.summed]
    · rfl

end State.AttemptsSummed

/-! ## A step -/

/-- The steps other than a score for a room count no attempt. -/
theorem PlayStep.attemptsIn {srv : Deployment} {s t : State} {e : Event}
    (h : PlayStep srv s e t)
    (hother : ∀ now view roomId itemId uid tokenId info,
      e ≠ .submitPlaylist now view roomId itemId uid tokenId info) :
    t.itemAttempts = s.itemAttempts ∧ t.playlistBest = s.playlistBest := by
  cases h with
  | same hplays | register _ hplays | createSolo _ _ hplays | createPlaylist _ _ _ hplays
  | submitSolo _ _ _ hplays | finalize _ _ _ _ _ _ hplays =>
    exact ⟨congrArg (·.2.2.2.1) hplays, congrArg (·.2.2.1) hplays⟩
  | submitPlaylist _ _ _ _ _ _ _ => exact absurd rfl (hother _ _ _ _ _ _ _)

namespace State.AttemptsSummed

theorem step {srv : Deployment} {s t : State} {e : Event} (hsum : s.AttemptsSummed)
    (h : Step srv s e t) : t.AttemptsSummed := by
  cases h.plays with
  | submitPlaylist _ _ _ _ _ _ hplays =>
    refine AttemptsSummed.congr hplays (AttemptsSummed.counted ?_ _ _ _ _ _ rfl).1
    exact ⟨hsum.once, hsum.summed⟩
  | same hplays => exact hsum.congr hplays
  | register _ hplays | createSolo _ _ hplays | createPlaylist _ _ _ hplays
  | submitSolo _ _ _ hplays | finalize _ _ _ _ _ _ hplays =>
    exact AttemptsSummed.congr hplays ⟨hsum.once, hsum.summed⟩

end State.AttemptsSummed

/-- **A step within the limits** stays within them exactly if it finds an attempt left. -/
theorem Step.withinLimits_iff {srv : Deployment} {s t : State} {e : Event}
    (hsum : s.AttemptsSummed) (hs : s.WithinLimits srv) (h : Step srv s e t) :
    t.WithinLimits srv ↔ AttemptLeft srv s e := by
  by_cases hother : ∀ now view roomId itemId uid tokenId info,
      e ≠ .submitPlaylist now view roomId itemId uid tokenId info
  · have hsame : t.WithinLimits srv := by
      intro roomId n hn uid
      rw [State.attemptsIn, (h.plays.attemptsIn hother).1]
      exact hs roomId n hn uid
    refine ⟨fun _ => ?_, fun _ => hsame⟩
    cases e with
    | submitPlaylist => exact absurd rfl (hother _ _ _ _ _ _ _)
    | _ => trivial
  · push Not at hother
    obtain ⟨now, view, roomId, itemId, uid, tokenId, info, rfl⟩ := hother
    obtain ⟨u, h⟩ := h
    obtain ⟨token, htoken, -, -, -, hcases⟩ := submitPlaylistScore_ok h
    rcases hcases with ⟨hused, rfl⟩ | ⟨hnew, bm, mode, info', -, -, sc, -, ht⟩
    · refine ⟨fun _ token' n htoken' hnew => ?_, fun _ => hs⟩
      obtain rfl := Option.some.inj (htoken.symm.trans htoken')
      exact absurd hnew hused
    · have hlinked : (s.linked tokenId sc).AttemptsSummed := ⟨hsum.once, hsum.summed⟩
      have hcount : ∀ roomId' uid', t.attemptsIn roomId' uid' =
          s.attemptsIn roomId' uid' + if roomId' = roomId ∧ uid' = uid then 1 else 0 :=
        (hlinked.counted _ _ _ _ _ ht).2
      constructor
      · intro hwithin token' n _ _ hn
        have := hwithin roomId n hn uid
        rw [hcount, if_pos ⟨rfl, rfl⟩] at this
        exact this
      · intro hleft roomId' n hn uid'
        rw [hcount]
        split
        · next heq =>
          rw [heq.1] at hn ⊢
          rw [heq.2]
          exact hleft token n htoken hnew hn
        · exact hs roomId' n hn uid'

/-- **The limit of attempts.**  A run stays within the limits of its rooms exactly
if every score that goes to a room on an unused token finds an attempt left. -/
theorem max_attempts_law {srv : Deployment} {h : List (Event × State)} {s : State}
    (hrun : Runs srv (fun _ _ => True) h s) :
    (∀ x ∈ h, x.2.WithinLimits srv) ↔ Runs srv (AttemptLeft srv) h s :=
  hrun.always_iff (I := State.AttemptsSummed) (fun _ _ _ hsum hstep => hsum.step hstep)
    (fun _ _ _ hsum hs hstep => hstep.withinLimits_iff hsum hs)
    ⟨fun _ _ => List.nodup_nil, fun _ _ => rfl⟩ fun _ _ _ _ => Nat.zero_le _

/-- The only attempt of the room is left when the score arrives. -/
theorem max_attempts_law_first : ∃ h : List (Event × State),
    (∀ x ∈ h, x.2.WithinLimits plainServer) ∧ ∃ x ∈ h, x.2.attemptsIn 5 7 = 1 := by
  obtain ⟨h, hrun⟩ := runs_tokenIssued (P := AttemptLeft plainServer)
    fun _ => ⟨trivial, trivial, trivial⟩
  have hplayed := hrun.after (.submitPlaylist 9 {} 5 3 7 1 fullCombo)
    (fun _ n _ _ hn => Option.some.inj hn ▸ by decide +kernel) (by decide +kernel)
  exact ⟨_, (max_attempts_law (hplayed.mono fun _ _ _ => trivial)).mpr hplayed,
    _, List.mem_cons_self, by decide +kernel⟩

/-- Two tokens are issued before the first score arrives, and both count. -/
theorem limit_exceeded :
    ¬ ∀ (srv : Deployment) (h : List (Event × State)) (s : State),
      Runs srv (fun _ _ => True) h s → s.WithinLimits srv := by
  intro hwithin
  obtain ⟨h, hrun⟩ := runs_tokenIssued (P := fun _ _ => True) fun _ => ⟨trivial, trivial, trivial⟩
  have hplayed := ((hrun.after tokenAsked trivial (by decide +kernel)).after
    (.submitPlaylist 9 {} 5 3 7 1 fullCombo) trivial (by decide +kernel)).after
    (.submitPlaylist 9 {} 5 3 7 2 fullCombo) trivial (by decide +kernel)
  have hlimit := hwithin _ _ _ hplayed 5 1 rfl 7
  revert hlimit
  decide +kernel

end Soms.Scores
