import Soms.Scores.PlayStep

/-!
# Submission is exactly-once

A token is linked to one score for good, a created score of a room counts as one
attempt, and a processed score is in the counters of its user once.  The solo
endpoint also takes the tokens of a room and counts no attempt: `ThroughItsRoom`
excludes that.
-/

namespace Soms.Scores

open Txn

/-! ## The laws -/

namespace State

/-- The attempts of the user's playlist best row. -/
def attempts (s : State) (roomId : RoomId) (itemId : ItemId) (uid : UserId) : Nat :=
  ((s.playlistBest roomId uid).find? (·.playlistId == itemId)).elim 0 (·.attempts)

/-- The scores created for the item of the room by the user. -/
def created (s : State) (roomId : RoomId) (itemId : ItemId) (uid : UserId) : Nat :=
  s.scores.count fun sc =>
    decide (sc.roomId = some roomId ∧ sc.playlistItemId = some itemId ∧ sc.userId = uid)

/-- The sum over the processed scores of a user and mode of what they add, each
with the length its map had. -/
def tallied (settings : Settings) (s : State) (length : ScoreId → Nat) (um : UserMode)
    (x : Tally) : Int :=
  s.scores.sum fun sid sc =>
    if sc.processed = true ∧ sc.key.userMode = um then sc.tally settings (length sid) x else 0

/-- What is linked in `s` is linked the same way in `t`. -/
def KeepsLinks (s t : State) : Prop :=
  ∀ tokenId token sid, s.tokens.row tokenId = some token → token.scoreId = some sid →
    ∃ token', t.tokens.row tokenId = some token' ∧ token'.scoreId = some sid

end State

/-- The length is that of the score's map when it was finalised in the run. -/
def Measured (h : List (Event × State)) (sid : ScoreId) (sc : Score) (length : Nat) : Prop :=
  ∃ calculated t bm, (.finalize calculated sid, t) ∈ h ∧
    t.beatmaps.row sc.beatmapId = some bm ∧ bm.totalLength = length

/-- What holds of tokens, attempts and counters after a run. -/
structure ExactlyOnce (settings : Settings) (h : List (Event × State)) (s : State) : Prop where
  /-- A token is linked to a score, and to the same one from then on. -/
  linked : ∀ tokenId token sid, s.tokens.row tokenId = some token → token.scoreId = some sid →
    (s.scores.row sid).isSome
  keeps : ∀ x ∈ h, x.2.KeepsLinks s
  /-- A score is that of a token. -/
  tokenOf : ∀ sid, (s.scores.row sid).isSome →
    ∃ tokenId token, s.tokens.row tokenId = some token ∧ token.scoreId = some sid
  /-- No two tokens share a score. -/
  injective : ∀ tokenId tokenId' token token' sid, s.tokens.row tokenId = some token →
    s.tokens.row tokenId' = some token' → token.scoreId = some sid → token'.scoreId = some sid →
      tokenId = tokenId'
  attempts : ∀ roomId itemId uid, s.attempts roomId itemId uid = s.created roomId itemId uid
  counters : ∃ length : ScoreId → Nat,
    (∀ sid sc, s.scores.row sid = some sc → sc.processed = true →
      Measured h sid sc (length sid)) ∧
    ∀ um st, s.stats um = some st → ∀ x, st.tally x = s.tallied settings length um x

/-- A token of a room that is not used yet does not go to the solo endpoint. -/
def ThroughItsRoom (s : State) : Event → Prop
  | .submitSolo _ _ tokenId _ => ∀ token, s.tokens.row tokenId = some token →
      token.scoreId = none → token.roomId = none
  | _ => True

/-! ## The laws depend on the plays -/

namespace State

theorem created_congr {s t : State} (h : t.plays = s.plays) (roomId : RoomId) (itemId : ItemId)
    (uid : UserId) : t.created roomId itemId uid = s.created roomId itemId uid := by
  simp only [created, Table.count_eq_sum]
  refine Table.sum_congr (plays_next h) fun i => ?_
  have hrow := plays_row h i
  cases ht : t.scores.row i <;> cases hs : s.scores.row i <;> simp [ht, hs] at hrow ⊢
  have hcore := congrArg (fun sc : Score => (sc.roomId, sc.playlistItemId, sc.userId)) hrow
  simp only [Score.core, Score.ineligible, Prod.mk.injEq] at hcore
  simp [hcore]

theorem tallied_congr {s t : State} (settings : Settings) (h : t.plays = s.plays)
    (length : ScoreId → Nat) (um : UserMode) (x : Tally) :
    t.tallied settings length um x = s.tallied settings length um x := by
  refine Table.sum_congr (plays_next h) fun i => ?_
  have hrow := plays_row h i
  cases ht : t.scores.row i <;> cases hs : s.scores.row i <;> simp only [ht, hs] at hrow ⊢
  · simp at hrow
  · simp at hrow
  · next sc sc' =>
    have hcore : sc.core = sc'.core := by simpa using hrow
    have hproc : sc.core.processed = sc'.core.processed := congrArg Score.processed hcore
    have hkey : sc.core.key = sc'.core.key := congrArg Score.key hcore
    have hproc : sc.processed = sc'.processed := hproc
    have hkey : sc.key = sc'.key := hkey
    have htally : sc.tally settings (length i) x = sc'.tally settings (length i) x := by
      rw [← Score.tally_core, hcore, Score.tally_core]
    simp only [Option.elim, hproc, hkey, htally]

end State

/-- An unused token may be linked; the others stay. -/
theorem keepsLinks_linked {s : State} {tokenId : TokenId} {token : ScoreToken}
    (htoken : s.tokens.row tokenId = some token) (hnew : token.scoreId = none) (sc : Score) :
    s.KeepsLinks (s.linked tokenId sc) := by
  intro tokenId' token' sid hrow hsid
  have hne : tokenId' ≠ tokenId := by
    rintro rfl
    obtain rfl := Option.some.inj (hrow.symm.trans htoken)
    simp [hnew] at hsid
  exact ⟨token', by rw [State.linked, Table.row_modify, if_neg hne]; exact hrow, hsid⟩

theorem keepsLinks_insert (s : State) (token : ScoreToken) :
    s.KeepsLinks { s with tokens := s.tokens.insert token } := by
  intro tokenId token' sid hrow hsid
  exact ⟨token', Table.row_insert_of_some hrow, hsid⟩

/-- The parts of the law that are about one state, and what they rest on: a
processed score has a row of statistics. -/
structure PlaysInv (s : State) : Prop where
  tokenOf : ∀ sid, (s.scores.row sid).isSome →
    ∃ tokenId token, s.tokens.row tokenId = some token ∧ token.scoreId = some sid
  linked : ∀ tokenId token sid, s.tokens.row tokenId = some token → token.scoreId = some sid →
    (s.scores.row sid).isSome
  injective : ∀ tokenId tokenId' token token' sid, s.tokens.row tokenId = some token →
    s.tokens.row tokenId' = some token' → token.scoreId = some sid → token'.scoreId = some sid →
      tokenId = tokenId'
  accounts : ∀ sid sc, s.scores.row sid = some sc → sc.processed = true →
    (s.stats sc.key.userMode).isSome

namespace PlaysInv

variable {s t : State}

theorem congr (h : t.plays = s.plays) (hinv : PlaysInv s) : PlaysInv t where
  tokenOf := by
    intro sid hsid
    have hrow := congrArg Option.isSome (State.plays_row h sid)
    simp only [Option.isSome_map] at hrow
    rw [State.plays_tokens h]
    exact hinv.tokenOf sid (hrow ▸ hsid)
  linked := by
    intro tokenId token sid htoken hsid
    rw [State.plays_tokens h] at htoken
    have hrow := congrArg Option.isSome (State.plays_row h sid)
    simp only [Option.isSome_map] at hrow
    rw [hrow]
    exact hinv.linked tokenId token sid htoken hsid
  injective := by
    rw [State.plays_tokens h]
    exact hinv.injective
  accounts := by
    intro sid sc hsc hproc
    obtain ⟨sc', hsc', hcore⟩ := State.plays_score h hsc
    have hproc' : sc'.core.processed = sc.core.processed := congrArg Score.processed hcore
    have hkey : sc'.core.key = sc.core.key := congrArg Score.key hcore
    have hstats := hinv.accounts sid sc' hsc' (hproc'.trans hproc)
    have hsome := congrArg Option.isSome (State.plays_stats h sc.key.userMode)
    simp only [Option.isSome_map] at hsome
    have hkey : sc'.key = sc.key := hkey
    rw [hsome, ← hkey]
    exact hstats

theorem empty : PlaysInv State.empty := by
  constructor <;> simp [State.empty]

theorem register (hinv : PlaysInv s) (um : UserMode) (st : UserStatistics) :
    PlaysInv { s with stats := Function.update s.stats um (some st) } where
  tokenOf := hinv.tokenOf
  linked := hinv.linked
  injective := hinv.injective
  accounts := by
    intro sid sc hsc hproc
    by_cases hum : sc.key.userMode = um
    · simp [hum]
    · simpa [hum] using hinv.accounts sid sc hsc hproc

/-- A token that is not linked yet. -/
theorem create (hinv : PlaysInv s) {token : ScoreToken} (hnew : token.scoreId = none) :
    PlaysInv { s with tokens := s.tokens.insert token } := by
  have hold : ∀ tokenId token' sid, (s.tokens.insert token).row tokenId = some token' →
      token'.scoreId = some sid → s.tokens.row tokenId = some token' := by
    intro tokenId token' sid hrow hsid
    rw [Table.row_insert] at hrow
    split at hrow
    · obtain rfl := Option.some.inj hrow
      simp [hnew] at hsid
    · exact hrow
  exact
    { tokenOf := fun sid hsid =>
        have ⟨tokenId, token', hrow, hlink⟩ := hinv.tokenOf sid hsid
        ⟨tokenId, keepsLinks_insert s token tokenId token' sid hrow hlink⟩
      linked := fun tokenId token' sid hrow hsid =>
        hinv.linked tokenId token' sid (hold _ _ _ hrow hsid) hsid
      injective := fun tokenId tokenId' token token' sid hrow hrow' hsid hsid' =>
        hinv.injective _ _ _ _ sid (hold _ _ _ hrow hsid) (hold _ _ _ hrow' hsid') hsid hsid'
      accounts := hinv.accounts }

/-- A link goes to the new score or was there before. -/
theorem linked_cases {tokenId : TokenId} {sc : Score} {tokenId' : TokenId} {token' : ScoreToken}
    {sid : ScoreId} (hrow : (s.linked tokenId sc).tokens.row tokenId' = some token')
    (hsid : token'.scoreId = some sid) :
    (tokenId' = tokenId ∧ sid = s.scores.next) ∨
      tokenId' ≠ tokenId ∧ s.tokens.row tokenId' = some token' := by
  rw [State.linked, Table.row_modify] at hrow
  split at hrow
  · next heq =>
    obtain ⟨token, -, rfl⟩ := Option.map_eq_some_iff.mp hrow
    exact .inl ⟨heq, (Option.some.inj hsid).symm⟩
  · next hne => exact .inr ⟨hne, hrow⟩

/-- A token is linked to a new score. -/
theorem submit (hinv : PlaysInv s) {tokenId : TokenId} {token : ScoreToken} {sc : Score}
    (htoken : s.tokens.row tokenId = some token) (hunused : token.scoreId = none)
    (hnew : sc.processed = false) : PlaysInv (s.linked tokenId sc) where
  tokenOf := by
    intro sid hsid
    have hsid : ((s.scores.insert sc).row sid).isSome := hsid
    rw [Table.row_insert] at hsid
    split at hsid
    · next heq =>
      refine ⟨tokenId, { token with scoreId := some s.scores.next }, ?_, congrArg some heq.symm⟩
      simp [State.linked, Table.row_modify, htoken]
    · obtain ⟨tokenId', token', hrow, hlink⟩ := hinv.tokenOf sid hsid
      obtain ⟨token'', hrow', hlink'⟩ :=
        keepsLinks_linked htoken hunused sc tokenId' token' sid hrow hlink
      exact ⟨tokenId', token'', hrow', hlink'⟩
  linked := by
    intro tokenId' token' sid hrow hsid
    show ((s.scores.insert sc).row sid).isSome
    rw [Table.row_insert]
    split
    · rfl
    · next hne =>
      rcases linked_cases hrow hsid with ⟨-, heq⟩ | ⟨-, hold⟩
      · exact absurd heq hne
      · exact hinv.linked tokenId' token' sid hold hsid
  injective := by
    have hfresh : ∀ tokenId token, s.tokens.row tokenId = some token →
        token.scoreId ≠ some s.scores.next := by
      intro tokenId token hrow hsid
      have := hinv.linked tokenId token _ hrow hsid
      simp at this
    intro a b token token' sid ha hb hsid hsid'
    rcases linked_cases ha hsid with ⟨rfl, rfl⟩ | ⟨-, hold⟩
    · rcases linked_cases hb hsid' with ⟨rfl, -⟩ | ⟨-, hold'⟩
      · rfl
      · exact absurd hsid' (hfresh _ _ hold')
    · rcases linked_cases hb hsid' with ⟨-, rfl⟩ | ⟨-, hold'⟩
      · exact absurd hsid (hfresh _ _ hold)
      · exact hinv.injective a b token token' sid hold hold' hsid hsid'
  accounts := by
    intro sid sc' hrow hproc
    have hrow : (s.scores.insert sc).row sid = some sc' := hrow
    rw [Table.row_insert] at hrow
    split at hrow
    · obtain rfl := Option.some.inj hrow
      simp [hnew] at hproc
    · exact hinv.accounts sid sc' hrow hproc

theorem finalize (hinv : PlaysInv s) {sid : ScoreId} {sc : Score}
    (hsc : s.scores.row sid = some sc) (st : UserStatistics) :
    PlaysInv (s.finalized sid sc.key.userMode st) where
  tokenOf := by
    intro sid' hsid
    refine hinv.tokenOf sid' ?_
    have hsid : ((s.scores.modify sid _).row sid').isSome := hsid
    rw [Table.row_modify] at hsid
    split at hsid
    · simpa using hsid
    · exact hsid
  linked := by
    intro tokenId token sid' hrow hsid
    have hold := hinv.linked tokenId token sid' hrow hsid
    show ((s.scores.modify sid _).row sid').isSome
    rw [Table.row_modify]
    split
    · simpa using hold
    · exact hold
  injective := hinv.injective
  accounts := by
    intro sid' sc' hrow hproc
    show (Function.update s.stats sc.key.userMode (some st) sc'.key.userMode).isSome
    by_cases hum : sc'.key.userMode = sc.key.userMode
    · simp [hum]
    · rw [Function.update_of_ne hum]
      rw [State.finalized, Table.row_modify] at hrow
      split at hrow
      · next heq =>
        rw [heq, hsc] at hrow
        obtain rfl := Option.some.inj hrow
        exact absurd rfl hum
      · exact hinv.accounts sid' sc' hrow hproc

end PlaysInv

/-! ## Attempts -/

section Attempts

variable {s : State} {roomId : RoomId} {itemId : ItemId} {uid : UserId}

/-- The row of the item after an attempt. -/
theorem attempts_rows (rows : List PlaylistBest) (f : PlaylistBest → PlaylistBest)
    (hf : ∀ row, (f row).playlistId = row.playlistId ∧ (f row).attempts = row.attempts + 1)
    (itemId' : ItemId) (new : PlaylistBest) (hnew : new.playlistId = itemId ∧ new.attempts = 1) :
    ((if rows.any (·.playlistId == itemId) then
        rows.map fun row => if row.playlistId = itemId then f row else row
      else rows ++ [new]).find? (·.playlistId == itemId')).elim 0 (·.attempts) =
      (rows.find? (·.playlistId == itemId')).elim 0 (·.attempts) +
        if itemId' = itemId then 1 else 0 := by
  by_cases hany : rows.any (·.playlistId == itemId) = true
  · rw [if_pos hany, List.find?_map]
    have hpred : ((fun row : PlaylistBest => row.playlistId == itemId') ∘
        fun row => if row.playlistId = itemId then f row else row) =
        fun row => row.playlistId == itemId' := by
      funext row
      by_cases hrow : row.playlistId = itemId <;> simp [hrow, (hf row).1]
    rw [hpred]
    cases hfind : rows.find? (·.playlistId == itemId') with
    | none =>
      have hne : itemId' ≠ itemId := by
        rintro rfl
        obtain ⟨row, hmem, hrow⟩ := List.any_eq_true.mp hany
        exact absurd hrow (List.find?_eq_none.mp hfind row hmem)
      simp [hne]
    | some row =>
      have hid : row.playlistId = itemId' := by simpa using List.find?_some hfind
      subst hid
      by_cases hrow : row.playlistId = itemId <;> simp [hrow, (hf row).2]
  · rw [if_neg hany, List.find?_append]
    have hnone : itemId' = itemId → rows.find? (·.playlistId == itemId') = none := by
      rintro rfl
      rw [List.find?_eq_none]
      intro row hmem hrow
      exact hany (List.any_eq_true.mpr ⟨row, hmem, hrow⟩)
    by_cases hid : itemId' = itemId
    · rw [hnone hid, hid]
      simp [hnew.1, hnew.2]
    · have hother : ¬ itemId = itemId' := fun h => hid h.symm
      cases hfind : rows.find? (·.playlistId == itemId') <;> simp [hnew.1, hid, hother]

/-- An attempt counts for its item, room and user. -/
theorem attempts_processPlaylistBestScore (s : State) (sid : ScoreId) (total : Nat)
    (roomId' : RoomId) (itemId' : ItemId) (uid' : UserId) :
    (processPlaylistBestScore roomId itemId uid sid total s).attempts roomId' itemId' uid' =
      s.attempts roomId' itemId' uid' +
        if roomId' = roomId ∧ itemId' = itemId ∧ uid' = uid then 1 else 0 := by
  unfold processPlaylistBestScore State.attempts
  dsimp only
  by_cases hroom : roomId' = roomId
  · subst hroom
    by_cases huid : uid' = uid
    · subst huid
      rw [Function.update_self, Function.update_self]
      simp only [true_and, and_true]
      refine attempts_rows _ (fun row => _) (fun row => ?_) itemId' _ ⟨rfl, rfl⟩
      split <;> exact ⟨rfl, rfl⟩
    · simp [huid]
  · simp [hroom]

theorem created_linked (s : State) (tokenId : TokenId) (sc : Score) (roomId : RoomId)
    (itemId : ItemId) (uid : UserId) :
    (s.linked tokenId sc).created roomId itemId uid = s.created roomId itemId uid +
      if sc.roomId = some roomId ∧ sc.playlistItemId = some itemId ∧ sc.userId = uid then 1
      else 0 := by
  unfold State.created State.linked
  rw [Table.count_insert]
  simp only [decide_eq_true_eq]

theorem created_finalized (s : State) {sid : ScoreId} {sc : Score}
    (hsc : s.scores.row sid = some sc) (um : UserMode) (st : UserStatistics) (roomId : RoomId)
    (itemId : ItemId) (uid : UserId) :
    (s.finalized sid um st).created roomId itemId uid = s.created roomId itemId uid := by
  have := Table.count_modify s.scores (fun sc => { sc with processed := true })
    (fun sc => decide (sc.roomId = some roomId ∧ sc.playlistItemId = some itemId ∧
      sc.userId = uid)) hsc
  exact Nat.add_right_cancel this

end Attempts

/-- The attempts are the created scores. -/
def AttemptsCount (s : State) : Prop :=
  ∀ roomId itemId uid, s.attempts roomId itemId uid = s.created roomId itemId uid

theorem AttemptsCount.congr {s t : State} (h : t.plays = s.plays) (hcount : AttemptsCount s) :
    AttemptsCount t := by
  intro roomId itemId uid
  rw [State.created_congr h, ← hcount roomId itemId uid, State.attempts, State.attempts,
    State.plays_playlistBest h]

/-- **Attempts.**  A step through the room of its token keeps the count. -/
theorem PlayStep.attempts {srv : Deployment} {s t : State} {e : Event} (h : PlayStep srv s e t)
    (hroom : ThroughItsRoom s e) (hcount : AttemptsCount s) : AttemptsCount t := by
  cases h with
  | same hplays => exact hcount.congr hplays
  | register _ hplays =>
    refine AttemptsCount.congr hplays ?_
    exact hcount
  | createSolo _ _ hplays =>
    refine AttemptsCount.congr hplays ?_
    exact hcount
  | createPlaylist _ _ _ hplays =>
    refine AttemptsCount.congr hplays ?_
    exact hcount
  | submitSolo htoken hnew hsc hplays =>
    refine AttemptsCount.congr hplays fun roomId itemId uid => ?_
    have hnone := hroom _ htoken hnew
    rw [created_linked, hsc.roomId, hnone]
    simp only [reduceCtorEq, false_and, if_false, Nat.add_zero]
    exact hcount roomId itemId uid
  | @submitPlaylist _ _ roomId itemId uid tokenId _ _ token sc htoken huid hroomId hitem hnew hsc
      hplays =>
    refine AttemptsCount.congr hplays fun roomId' itemId' uid' => ?_
    have hold : (s.linked tokenId sc).attempts roomId' itemId' uid' =
      s.created roomId' itemId' uid' := hcount roomId' itemId' uid'
    show (processPlaylistBestScore roomId itemId uid s.scores.next sc.totalScore
      (s.linked tokenId sc)).attempts roomId' itemId' uid' =
        (s.linked tokenId sc).created roomId' itemId' uid'
    rw [attempts_processPlaylistBestScore, created_linked, hold, hsc.roomId, hsc.playlistItemId,
      hsc.userId, hroomId, hitem, huid]
    simp only [Option.some.injEq, eq_comm]
  | finalize hsc _ _ _ _ _ hplays =>
    refine AttemptsCount.congr hplays fun roomId itemId uid => ?_
    rw [created_finalized s hsc]
    exact hcount roomId itemId uid

/-! ## Counters -/

/-- The counters are the sums over the processed scores, each measured in the run. -/
def CountersSum (settings : Settings) (h : List (Event × State)) (s : State) : Prop :=
  ∃ length : ScoreId → Nat,
    (∀ sid sc, s.scores.row sid = some sc → sc.processed = true →
      Measured h sid sc (length sid)) ∧
    ∀ um st, s.stats um = some st → ∀ x, st.tally x = s.tallied settings length um x

section Counters

variable {settings : Settings} {h : List (Event × State)} {s t : State}

theorem Measured.cons {x : Event × State} {sid : ScoreId} {sc : Score} {length : Nat}
    (hm : Measured h sid sc length) : Measured (x :: h) sid sc length := by
  obtain ⟨calculated, u, bm, hmem, hbm⟩ := hm
  exact ⟨calculated, u, bm, List.mem_cons_of_mem x hmem, hbm⟩

/-- Without a row of statistics nothing is processed. -/
theorem tallied_unknown (settings : Settings) (hinv : PlaysInv s) {um : UserMode} (hum : s.stats um = none)
    (length : ScoreId → Nat) (x : Tally) : s.tallied settings length um x = 0 := by
  refine Table.sum_eq_zero _ fun sid sc hsc => if_neg ?_
  rintro ⟨hproc, rfl⟩
  have hsome := hinv.accounts sid sc hsc hproc
  simp [hum] at hsome

theorem tallied_linked (tokenId : TokenId) {sc : Score} (hnew : sc.processed = false)
    (length : ScoreId → Nat) (um : UserMode) (x : Tally) :
    (s.linked tokenId sc).tallied settings length um x = s.tallied settings length um x := by
  unfold State.tallied State.linked
  rw [Table.sum_insert]
  simp [hnew]

/-- A finalised score is added, with the length that its map has now. -/
theorem tallied_finalized {sid : ScoreId} {sc : Score} (hsc : s.scores.row sid = some sc)
    (hnew : sc.processed = false) (um : UserMode) (st : UserStatistics) (length : ScoreId → Nat)
    (now : Nat) (um' : UserMode) (x : Tally) :
    (s.finalized sid um st).tallied settings (Function.update length sid now) um' x =
      s.tallied settings length um' x +
        if sc.key.userMode = um' then sc.tally settings now x else 0 := by
  have hsum := Table.sum_change (t := s.scores) (u := (s.finalized sid um st).scores)
    (f := fun sid sc => if sc.processed = true ∧ sc.key.userMode = um' then
      sc.tally settings (length sid) x else 0)
    (g := fun sid' sc => if sc.processed = true ∧ sc.key.userMode = um' then
      sc.tally settings (Function.update length sid now sid') x else 0)
    (k := sid) rfl (Table.lt_next hsc)
    fun i hi => by simp [State.finalized, Table.row_modify, hi]
  have hrow : (s.finalized sid um st).scores.row sid = some { sc with processed := true } := by
    simp [State.finalized, Table.row_modify, hsc]
  rw [hsc, hrow] at hsum
  simp only [Option.elim, hnew, Bool.false_eq_true, false_and, if_false, add_zero, true_and,
    Function.update_self] at hsum
  exact hsum

theorem CountersSum.congr (hplays : t.plays = s.plays) (hsum : CountersSum settings h s) :
    CountersSum settings h t := by
  obtain ⟨length, hmeasured, hsum⟩ := hsum
  refine ⟨length, fun sid sc hsc hproc => ?_, fun um st hst x => ?_⟩
  · obtain ⟨sc', hsc', hcore⟩ := State.plays_score hplays hsc
    have hproc' : sc'.core.processed = sc.core.processed := congrArg Score.processed hcore
    have hmap : sc'.core.beatmapId = sc.core.beatmapId := congrArg Score.beatmapId hcore
    obtain ⟨calculated, u, bm, hmem, hbm⟩ := hmeasured sid sc' hsc' (hproc'.trans hproc)
    have hmap : sc'.beatmapId = sc.beatmapId := hmap
    exact ⟨calculated, u, bm, hmem, hmap ▸ hbm⟩
  · have hstats := State.plays_stats hplays um
    rw [hst] at hstats
    obtain ⟨st', hst', htally⟩ := Option.map_eq_some_iff.mp hstats.symm
    rw [State.tallied_congr settings hplays, ← hsum um st' hst' x, htally]

theorem CountersSum.linked {tokenId : TokenId} {sc : Score} (hsum : CountersSum settings h s)
    (hnew : sc.processed = false) : CountersSum settings h (s.linked tokenId sc) := by
  obtain ⟨length, hmeasured, hsum⟩ := hsum
  refine ⟨length, fun sid sc' hsc' hproc => ?_, fun um st hst x => ?_⟩
  · have hrow : (s.scores.insert sc).row sid = some sc' := hsc'
    rw [Table.row_insert] at hrow
    split at hrow
    · obtain rfl := Option.some.inj hrow
      simp [hnew] at hproc
    · exact hmeasured sid sc' hrow hproc
  · rw [tallied_linked tokenId hnew]
    exact hsum um st hst x

theorem CountersSum.later (hsum : CountersSum settings h s) (x : Event × State) :
    CountersSum settings (x :: h) s := by
  obtain ⟨length, hmeasured, hsum⟩ := hsum
  exact ⟨length, fun sid sc hsc hproc => (hmeasured sid sc hsc hproc).cons, hsum⟩

end Counters

/-- **Counters.**  Every step keeps the sums. -/
theorem PlayStep.counters {srv : Deployment} {h : List (Event × State)} {s t : State} {e : Event}
    (hstep : PlayStep srv s e t) (hinv : PlaysInv s)
    (hsum : CountersSum srv.toSettings h s) : CountersSum srv.toSettings ((e, t) :: h) t := by
  cases hstep with
  | same hplays => exact (hsum.congr hplays).later _
  | @register uid mode _ hnew hplays =>
    refine CountersSum.congr hplays (CountersSum.later ?_ _)
    obtain ⟨length, hmeasured, hsum⟩ := hsum
    refine ⟨length, hmeasured, fun um st hst x => ?_⟩
    have hst : Function.update s.stats (uid, mode) (some {}) um = some st := hst
    by_cases hum : um = (uid, mode)
    · subst hum
      rw [Function.update_self] at hst
      obtain rfl := Option.some.inj hst
      have hzero := tallied_unknown srv.toSettings hinv hnew length x
      refine Eq.trans ?_ hzero.symm
      cases x <;> rfl
    · rw [Function.update_of_ne hum] at hst
      exact hsum um st hst x
  | createSolo _ _ hplays =>
    refine CountersSum.congr hplays (CountersSum.later ?_ _)
    exact hsum
  | createPlaylist _ _ _ hplays =>
    refine CountersSum.congr hplays (CountersSum.later ?_ _)
    exact hsum
  | submitSolo _ _ hsc hplays =>
    exact ((hsum.linked hsc.processed).congr hplays).later _
  | @submitPlaylist _ _ _ _ _ tokenId _ _ token sc _ _ _ _ _ hsc hplays =>
    refine CountersSum.congr hplays (CountersSum.later ?_ _)
    have hlinked : CountersSum srv.toSettings h (s.linked tokenId sc) := hsum.linked hsc.processed
    exact hlinked
  | @finalize calculated sid _ sc bm st st' hsc hnew hbm hst htally hmaps hplays =>
    refine CountersSum.congr hplays ?_
    obtain ⟨length, hmeasured, hsum⟩ := hsum
    refine ⟨Function.update length sid bm.totalLength, fun sid' sc' hsc' hproc => ?_,
      fun um u hu x => ?_⟩
    · by_cases hsid : sid' = sid
      · subst hsid
        have hmap : sc'.beatmapId = sc.beatmapId := by
          have hrow : (s.finalized sid' sc.key.userMode st').scores.row sid' =
              some { sc with processed := true } := by
            simp [State.finalized, Table.row_modify, hsc]
          rw [hrow] at hsc'
          obtain rfl := Option.some.inj hsc'
          rfl
        refine ⟨calculated, t, bm, List.mem_cons_self, ?_, by simp⟩
        rw [hmaps, hmap]
        exact hbm
      · rw [State.finalized, Table.row_modify, if_neg hsid] at hsc'
        rw [Function.update_of_ne hsid]
        exact (hmeasured sid' sc' hsc' hproc).cons
    · rw [tallied_finalized hsc hnew]
      by_cases hum : um = sc.key.userMode
      · subst hum
        have hu : Function.update s.stats sc.key.userMode (some st') sc.key.userMode = some u := hu
        rw [Function.update_self] at hu
        obtain rfl := Option.some.inj hu
        rw [htally, hsum _ st hst x, if_pos rfl]
      · have hu : Function.update s.stats sc.key.userMode (some st') um = some u := hu
        rw [Function.update_of_ne hum] at hu
        rw [hsum um u hu x, if_neg (Ne.symm hum), add_zero]

/-! ## Links -/

theorem PlayStep.inv {srv : Deployment} {s t : State} {e : Event} (h : PlayStep srv s e t)
    (hinv : PlaysInv s) : PlaysInv t := by
  cases h with
  | same hplays => exact hinv.congr hplays
  | register _ hplays => exact (hinv.register _ _).congr hplays
  | createSolo hnew _ hplays => exact (hinv.create hnew).congr hplays
  | createPlaylist hnew _ _ hplays => exact (hinv.create hnew).congr hplays
  | submitSolo htoken hnew hsc hplays =>
    exact (hinv.submit htoken hnew hsc.processed).congr hplays
  | submitPlaylist htoken _ _ _ hnew hsc hplays =>
    refine PlaysInv.congr hplays ?_
    have hlinked := hinv.submit htoken hnew hsc.processed
    exact ⟨hlinked.tokenOf, hlinked.linked, hlinked.injective, hlinked.accounts⟩
  | finalize hsc _ _ _ _ _ hplays => exact (hinv.finalize hsc _).congr hplays

/-- **Links.**  Every step keeps them. -/
theorem PlayStep.keepsLinks {srv : Deployment} {s t : State} {e : Event}
    (h : PlayStep srv s e t) : s.KeepsLinks t := by
  have hcongr : ∀ {u : State}, t.plays = u.plays → s.KeepsLinks u → s.KeepsLinks t := by
    intro u hplays hkeeps
    unfold State.KeepsLinks
    rw [State.plays_tokens hplays]
    exact hkeeps
  have hrefl : s.KeepsLinks s := fun tokenId token sid hrow hsid => ⟨token, hrow, hsid⟩
  cases h with
  | same hplays => exact hcongr hplays hrefl
  | register _ hplays => exact hcongr hplays hrefl
  | createSolo _ _ hplays => exact hcongr hplays (keepsLinks_insert s _)
  | createPlaylist _ _ _ hplays => exact hcongr hplays (keepsLinks_insert s _)
  | submitSolo htoken hnew _ hplays => exact hcongr hplays (keepsLinks_linked htoken hnew _)
  | @submitPlaylist _ _ _ _ _ tokenId _ _ token sc htoken _ _ _ hnew _ hplays =>
    have hkeeps : s.KeepsLinks (s.linked tokenId sc) := keepsLinks_linked htoken hnew sc
    exact hcongr hplays hkeeps
  | finalize _ _ _ _ _ _ hplays => exact hcongr hplays hrefl

theorem State.KeepsLinks.trans {s t u : State} (h₁ : s.KeepsLinks t) (h₂ : t.KeepsLinks u) :
    s.KeepsLinks u := by
  intro tokenId token sid hrow hsid
  obtain ⟨token', hrow', hsid'⟩ := h₁ tokenId token sid hrow hsid
  exact h₂ tokenId token' sid hrow' hsid'

/-! ## The laws hold in every run -/

/-- **Exactly-once submission.** -/
theorem submission_exactly_once {srv : Deployment} {h : List (Event × State)} {s : State}
    (hrun : Runs srv ThroughItsRoom h s) : ExactlyOnce srv.toSettings h s := by
  have hall : PlaysInv s ∧ AttemptsCount s ∧ CountersSum srv.toSettings h s ∧
      ∀ x ∈ h, x.2.KeepsLinks s := by
    refine hrun.invariant (I := fun h s => PlaysInv s ∧ AttemptsCount s ∧
      CountersSum srv.toSettings h s ∧ ∀ x ∈ h, x.2.KeepsLinks s) ?_
      ⟨.empty, fun _ _ _ => rfl, ⟨fun _ => 0, by simp [State.empty], by simp [State.empty]⟩,
        by simp⟩
    rintro h s e t ⟨hinv, hcount, hsum, hkeeps⟩ hroom hstep
    have hplays := hstep.plays
    refine ⟨hplays.inv hinv, hplays.attempts hroom hcount, hplays.counters hinv hsum, ?_⟩
    intro x hx
    rcases List.mem_cons.mp hx with rfl | hx
    · exact fun _ token _ hrow hsid => ⟨token, hrow, hsid⟩
    · exact (hkeeps x hx).trans hplays.keepsLinks
  obtain ⟨hinv, hcount, hsum, hkeeps⟩ := hall
  exact ⟨hinv.linked, hkeeps, hinv.tokenOf, hinv.injective, hcount, hsum⟩

/-- The score is submitted twice and finalised once. -/
theorem submission_exactly_once_played : ∃ h s, ExactlyOnce plainServer.toSettings h s ∧
    s.attempts 5 3 7 = 1 ∧ s.scores.count (fun sc => sc.processed) = 1 := by
  obtain ⟨h, hrun⟩ := runs_tokenIssued (P := ThroughItsRoom) fun _ => ⟨trivial, trivial, trivial⟩
  have hplayed := ((hrun.after (.submitPlaylist 9 {} 5 3 7 1 fullCombo) trivial
    (by decide +kernel)).after (.submitPlaylist 9 {} 5 3 7 1 fullCombo) trivial
    (by decide +kernel)).after (.finalize none 1) trivial (by decide +kernel)
  exact ⟨_, _, submission_exactly_once hplayed, by decide +kernel, by decide +kernel⟩

/-- The solo endpoint takes the token of the room, and the attempt is not counted. -/
theorem solo_attempt_not_counted :
    ¬ ∀ (srv : Deployment) (h : List (Event × State)) (s : State),
      Runs srv (fun _ _ => True) h s → ExactlyOnce srv.toSettings h s := by
  intro honce
  obtain ⟨h, hrun⟩ := runs_tokenIssued (P := fun _ _ => True) fun _ => ⟨trivial, trivial, trivial⟩
  have hsolo := hrun.after (.submitSolo 9 7 1 fullCombo) trivial (by decide +kernel)
  have hcount := (honce _ _ _ hsolo).attempts 5 3 7
  revert hcount
  decide +kernel

end Soms.Scores
