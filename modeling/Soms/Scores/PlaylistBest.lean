import Mathlib.Data.Prod.Lex
import Soms.Library.FirstBest
import Soms.Scores.Once

/-!
# The best play of a playlist item

`process_playlist_best_score` replaces the row of the item whenever its play failed, and otherwise
by the totals alone.  A failed play so gives way to a worse one, and a passed play to a failed one
with a higher total.
-/

namespace Soms.Scores

open Txn

/-- A play that was submitted to an item. -/
structure Submission where
  scoreId : ScoreId
  passed : Bool
  totalScore : Nat
  deriving DecidableEq, Repr

/-- A passed play is better than a failed one, then the total decides. -/
def Submission.key (sub : Submission) : Bool ×ₗ Nat := toLex (sub.passed, sub.totalScore)

/-- The play that an event submitted to the item. -/
def submitted (roomId : RoomId) (itemId : ItemId) (uid : UserId) (s : State) :
    Event → State → Option Submission
  | .submitPlaylist _ _ roomId' itemId' uid' _ _, t =>
    if roomId' = roomId ∧ itemId' = itemId ∧ uid' = uid then
      (t.scores.row s.scores.next).map fun sc => ⟨s.scores.next, sc.passed, sc.totalScore⟩
    else none
  | _, _ => none

/-- The plays that a user submitted to an item, the newest first. -/
def submissions (roomId : RoomId) (itemId : ItemId) (uid : UserId) :
    List (Event × State) → List Submission
  | [] => []
  | (e, t) :: past =>
    (submitted roomId itemId uid (endState State.empty past) e t).toList ++
      submissions roomId itemId uid past

/-- The rows of a user for an item. -/
def State.itemRows (s : State) (roomId : RoomId) (itemId : ItemId) (uid : UserId) :
    List PlaylistBest :=
  (s.playlistBest roomId uid).filter fun row => row.playlistId = itemId

/-- There is one row if there is a play.  It holds the first of the best and counts all. -/
def HoldsBest (itemId : ItemId) (subs : List Submission) (rows : List PlaylistBest) : Prop :=
  subs = [] ∧ rows = [] ∨ ∃ best, FirstBest Submission.key subs best ∧
    rows = [⟨itemId, best.scoreId, best.totalScore, subs.length⟩]

/-- Every item has the best play of every user. -/
def PlaylistBestLaw (h : List (Event × State)) (s : State) : Prop :=
  ∀ roomId itemId uid,
    HoldsBest itemId (submissions roomId itemId uid h) (s.itemRows roomId itemId uid)

/-- A failed play has more than the row it meets exactly if that is of a failed play too. -/
def FailedInOrder (past : List (Event × State)) (e : Event) (t : State) : Prop :=
  match e with
  | .submitPlaylist _ _ roomId itemId uid _ _ =>
    let s := endState State.empty past
    ∀ new ∈ submitted roomId itemId uid s e t, ∀ row ∈ s.itemRows roomId itemId uid,
      ∀ old ∈ s.scores.row row.scoreId,
        new.passed = false → (old.passed = false ↔ row.totalScore < new.totalScore)
  | _ => True

instance (past : List (Event × State)) (e : Event) (t : State) :
    Decidable (FailedInOrder past e t) := by
  unfold FailedInOrder
  split <;> infer_instance

theorem Submission.key_lt {a b : Submission} :
    a.key < b.key ↔ a.passed = false ∧ b.passed = true ∨
      a.passed = b.passed ∧ a.totalScore < b.totalScore := by
  rw [Submission.key, Submission.key, Prod.Lex.toLex_lt_toLex, Bool.lt_iff]

/-! ## What a step does to the rows -/

/-- The row of an item after another play. -/
def PlaylistBest.attempted (scores : Table Score) (sid : ScoreId) (total : Nat)
    (row : PlaylistBest) : PlaylistBest :=
  let row :=
    if (scores.row row.scoreId).all (!·.passed) ∨ row.totalScore < total then
      { row with scoreId := sid, totalScore := total }
    else row
  { row with attempts := row.attempts + 1 }

section Rows

variable {s t : State} {roomId : RoomId} {itemId : ItemId} {uid : UserId} {sid : ScoreId}
  {total : Nat}

@[simp] theorem PlaylistBest.attempted_playlistId (scores : Table Score) (row : PlaylistBest) :
    (row.attempted scores sid total).playlistId = row.playlistId := by
  unfold attempted
  dsimp only
  split <;> rfl

theorem playlistBest_counted (s : State) (roomId : RoomId) (itemId : ItemId) (uid : UserId)
    (sid : ScoreId) (total : Nat) :
    (updateItemAttempts roomId uid
      (processPlaylistBestScore roomId itemId uid sid total s)).playlistBest roomId uid =
      if (s.playlistBest roomId uid).any (·.playlistId == itemId) then
        (s.playlistBest roomId uid).map fun row =>
          if row.playlistId = itemId then row.attempted s.scores sid total else row
      else s.playlistBest roomId uid ++ [⟨itemId, sid, total, 1⟩] :=
  (congrFun (Function.update_self roomId _ s.playlistBest) uid).trans (Function.update_self uid _ _)

theorem playlistBest_counted_of_ne (s : State) {roomId' : RoomId} {uid' : UserId}
    (hne : ¬ (roomId = roomId' ∧ uid = uid')) (itemId : ItemId) (sid : ScoreId) (total : Nat) :
    (updateItemAttempts roomId uid
      (processPlaylistBestScore roomId itemId uid sid total s)).playlistBest roomId' uid' =
        s.playlistBest roomId' uid' := by
  show Function.update s.playlistBest roomId _ roomId' uid' = _
  by_cases hroom : roomId' = roomId
  · subst hroom
    rw [Function.update_self, Function.update_of_ne fun h => hne ⟨rfl, h.symm⟩]
  · rw [Function.update_of_ne hroom]

/-- The rows of the item after a play. -/
theorem itemRows_counted (s : State) (roomId : RoomId) (itemId : ItemId) (uid : UserId)
    (sid : ScoreId) (total : Nat) :
    (updateItemAttempts roomId uid
      (processPlaylistBestScore roomId itemId uid sid total s)).itemRows roomId itemId uid =
      if s.itemRows roomId itemId uid = [] then [⟨itemId, sid, total, 1⟩]
      else (s.itemRows roomId itemId uid).map (·.attempted s.scores sid total) := by
  have hany : (s.playlistBest roomId uid).any (·.playlistId == itemId) = true ↔
      ¬ s.itemRows roomId itemId uid = [] := by
    simp [State.itemRows]
  rw [State.itemRows, playlistBest_counted]
  by_cases hrows : s.itemRows roomId itemId uid = []
  · rw [if_neg (fun h => hany.mp h hrows), if_pos hrows, List.filter_append]
    rw [show (s.playlistBest roomId uid).filter _ = [] from hrows]
    simp
  · rw [if_pos (hany.mpr hrows), if_neg hrows, List.filter_map]
    have hpred : ((fun row : PlaylistBest => decide (row.playlistId = itemId)) ∘ fun row =>
        if row.playlistId = itemId then row.attempted s.scores sid total else row) =
        fun row => decide (row.playlistId = itemId) := by
      funext row
      by_cases hrow : row.playlistId = itemId <;> simp [hrow]
    rw [hpred]
    refine List.map_congr_left fun row hrow => ?_
    rw [if_pos (by simpa using (List.mem_filter.mp hrow).2)]

/-- The rows of the other items, rooms and users stay. -/
theorem itemRows_counted_of_ne (s : State) {roomId' : RoomId} {itemId' : ItemId} {uid' : UserId}
    (hne : ¬ (roomId = roomId' ∧ itemId = itemId' ∧ uid = uid')) (sid : ScoreId) (total : Nat) :
    (updateItemAttempts roomId uid
      (processPlaylistBestScore roomId itemId uid sid total s)).itemRows roomId' itemId' uid' =
      s.itemRows roomId' itemId' uid' := by
  by_cases hplace : roomId = roomId' ∧ uid = uid'
  · obtain ⟨rfl, rfl⟩ := hplace
    have hitem : itemId ≠ itemId' := fun h => hne ⟨rfl, h, rfl⟩
    rw [State.itemRows, playlistBest_counted, State.itemRows]
    split
    · rw [List.filter_map]
      have hpred : ((fun row : PlaylistBest => decide (row.playlistId = itemId')) ∘ fun row =>
          if row.playlistId = itemId then row.attempted s.scores sid total else row) =
          fun row => decide (row.playlistId = itemId') := by
        funext row
        by_cases hrow : row.playlistId = itemId <;> simp [hrow]
      rw [hpred]
      refine (List.map_congr_left fun row hrow => ?_).trans (List.map_id _)
      have hrow : row.playlistId = itemId' := by simpa using (List.mem_filter.mp hrow).2
      rw [if_neg (fun h => hitem (h.symm.trans hrow))]
      rfl
    · simp [List.filter_append, hitem]
  · rw [State.itemRows, State.itemRows, playlistBest_counted_of_ne s hplace]

end Rows

/-- What a step does to the rows of an item, and what it submits to it. -/
theorem PlayStep.itemRows {srv : Deployment} {s t : State} {e : Event} (h : PlayStep srv s e t)
    (roomId : RoomId) (itemId : ItemId) (uid : UserId) :
    (submitted roomId itemId uid s e t = none ∧
        t.itemRows roomId itemId uid = s.itemRows roomId itemId uid) ∨
      ∃ sc : Score,
        submitted roomId itemId uid s e t = some ⟨s.scores.next, sc.passed, sc.totalScore⟩ ∧
        t.itemRows roomId itemId uid =
          if s.itemRows roomId itemId uid = [] then [⟨itemId, s.scores.next, sc.totalScore, 1⟩]
          else (s.itemRows roomId itemId uid).map
            (·.attempted (s.scores.insert sc) s.scores.next sc.totalScore) := by
  cases h with
  | same hplays =>
    refine .inl ⟨?_, ?_⟩
    · have hnone : t.scores.row s.scores.next = none := by
        have := State.result_of_plays hplays s.scores.next
        rwa [Table.row_next, Option.map_none, Option.map_eq_none_iff] at this
      unfold submitted
      split
      · simp [hnone]
      · rfl
    · rw [State.itemRows, State.itemRows, State.plays_playlistBest hplays]
  | register _ hplays | createSolo _ _ hplays | createPlaylist _ _ _ hplays
  | submitSolo _ _ _ hplays | finalize _ _ _ _ _ _ hplays =>
    refine .inl ⟨rfl, ?_⟩
    rw [State.itemRows, State.plays_playlistBest hplays]
    rfl
  | @submitPlaylist _ _ roomId' itemId' uid' tokenId _ _ _ sc _ _ _ _ _ _ hplays =>
    have hrow : (t.scores.row s.scores.next).map Score.result = some sc.result := by
      refine (State.result_of_plays hplays s.scores.next).trans ?_
      show ((s.scores.insert sc).row s.scores.next).map Score.result = _
      simp
    obtain ⟨sc', hsc', hresult⟩ := Option.map_eq_some_iff.mp hrow
    obtain ⟨hpassed, htotal⟩ := Score.result_eq hresult
    have hrows : ∀ roomId itemId uid, t.itemRows roomId itemId uid =
        (updateItemAttempts roomId' uid' (processPlaylistBestScore roomId' itemId' uid'
          s.scores.next sc.totalScore (s.linked tokenId sc))).itemRows roomId itemId uid := by
      intro roomId itemId uid
      rw [State.itemRows, State.itemRows, State.plays_playlistBest hplays]
    by_cases hplace : roomId' = roomId ∧ itemId' = itemId ∧ uid' = uid
    · refine .inr ⟨sc, by simp [submitted, hplace, hsc', hpassed, htotal], ?_⟩
      obtain ⟨rfl, rfl, rfl⟩ := hplace
      rw [hrows, itemRows_counted]
      rfl
    · refine .inl ⟨by simp only [submitted, if_neg hplace], ?_⟩
      rw [hrows, itemRows_counted_of_ne _ hplace]
      rfl

/-! ## The law -/

/-- The plays of the history are those of the score table. -/
def Known (h : List (Event × State)) (s : State) : Prop :=
  ∀ roomId itemId uid, ∀ sub ∈ submissions roomId itemId uid h, ∃ sc,
    s.scores.row sub.scoreId = some sc ∧ sc.passed = sub.passed ∧ sc.totalScore = sub.totalScore

section Law

variable {srv : Deployment} {past : List (Event × State)} {s t : State} {e : Event}
  {roomId : RoomId} {itemId : ItemId} {uid : UserId}

theorem submitted_eq_some {new : Submission} (h : submitted roomId itemId uid s e t = some new) :
    new.scoreId = s.scores.next ∧ ∃ sc, t.scores.row new.scoreId = some sc ∧
      sc.passed = new.passed ∧ sc.totalScore = new.totalScore := by
  unfold submitted at h
  split at h
  · split at h
    · obtain ⟨sc, hsc, rfl⟩ := Option.map_eq_some_iff.mp h
      exact ⟨rfl, sc, hsc, rfl, rfl⟩
    · simp at h
  · simp at h

theorem submissions_cons (hend : endState State.empty past = s) :
    submissions roomId itemId uid ((e, t) :: past) =
      (submitted roomId itemId uid s e t).toList ++ submissions roomId itemId uid past := by
  rw [submissions, hend]

theorem Known.step (hknown : Known past s) (hend : endState State.empty past = s)
    (h : PlayStep srv s e t) : Known ((e, t) :: past) t := by
  intro roomId itemId uid sub hsub
  rw [submissions_cons hend, List.mem_append, Option.mem_toList] at hsub
  rcases hsub with hnew | hold
  · exact (submitted_eq_some hnew).2
  · obtain ⟨sc, hsc, hpassed, htotal⟩ := hknown roomId itemId uid sub hold
    obtain ⟨sc', hsc', hresult⟩ := Option.map_eq_some_iff.mp (h.result hsc)
    obtain ⟨hpassed', htotal'⟩ := Score.result_eq hresult
    exact ⟨sc', hsc', hpassed'.trans hpassed, htotal'.trans htotal⟩

/-- The score tells which play it was. -/
theorem Known.eq_of_scoreId (hknown : Known past s) {a b : Submission}
    (ha : a ∈ submissions roomId itemId uid past) (hb : b ∈ submissions roomId itemId uid past)
    (hid : a.scoreId = b.scoreId) : a = b := by
  obtain ⟨sc, hsc, hpassed, htotal⟩ := hknown roomId itemId uid a ha
  obtain ⟨sc', hsc', hpassed', htotal'⟩ := hknown roomId itemId uid b hb
  obtain rfl := Option.some.inj (hsc.symm.trans (hid ▸ hsc'))
  cases a
  cases b
  simp_all

/-- The row is that of the play it names. -/
theorem Known.holdsBest_iff (hknown : Known past s) {best : Submission}
    (hbest : best ∈ submissions roomId itemId uid past) :
    HoldsBest itemId (submissions roomId itemId uid past)
        [⟨itemId, best.scoreId, best.totalScore, (submissions roomId itemId uid past).length⟩] ↔
      FirstBest Submission.key (submissions roomId itemId uid past) best := by
  constructor
  · rintro (⟨-, hnil⟩ | ⟨best', hfirst, hrow⟩)
    · simp at hnil
    · have hid : best.scoreId = best'.scoreId := by simp_all
      rwa [hknown.eq_of_scoreId hbest hfirst.mem hid]
  · exact fun hfirst => .inr ⟨best, hfirst, rfl⟩

/-- **One play.**  The item keeps its best exactly if a play that failed is in order. -/
theorem PlayStep.holdsBest_iff (hknown : Known past s) (hend : endState State.empty past = s)
    (h : PlayStep srv s e t) (hlaw : PlaylistBestLaw past s) :
    HoldsBest itemId (submissions roomId itemId uid ((e, t) :: past))
        (t.itemRows roomId itemId uid) ↔
      ∀ new ∈ submitted roomId itemId uid s e t, ∀ row ∈ s.itemRows roomId itemId uid,
        ∀ old ∈ s.scores.row row.scoreId,
          new.passed = false → (old.passed = false ↔ row.totalScore < new.totalScore) := by
  have hknown' := hknown.step hend h
  rcases h.itemRows roomId itemId uid with ⟨hnone, hrows⟩ | ⟨sc, hnew, hrows⟩
  · have hsubs : submissions roomId itemId uid ((e, t) :: past) =
        submissions roomId itemId uid past := by rw [submissions_cons hend, hnone]; rfl
    rw [hsubs, hrows, hnone]
    simp [hlaw roomId itemId uid]
  · obtain ⟨new, hdef⟩ : ∃ new : Submission, new = ⟨s.scores.next, sc.passed, sc.totalScore⟩ :=
      ⟨_, rfl⟩
    rw [← hdef] at hnew
    have hsubs : submissions roomId itemId uid ((e, t) :: past) =
        new :: submissions roomId itemId uid past := by rw [submissions_cons hend, hnew]; rfl
    have hfresh : new ∉ submissions roomId itemId uid past := by
      intro hmem
      obtain ⟨sc', hsc', -⟩ := hknown roomId itemId uid new hmem
      rw [hdef, Table.row_next] at hsc'
      simp at hsc'
    rcases hlaw roomId itemId uid with ⟨hnil, hempty⟩ | ⟨best, hbest, hrow⟩
    · rw [hsubs, hrows, if_pos hempty, hempty, hnil]
      simp only [List.not_mem_nil, false_imp_iff, implies_true, iff_true]
      exact .inr ⟨new, .single _ _, by rw [hdef]; rfl⟩
    · obtain ⟨old, hold, hpassed, -⟩ := hknown roomId itemId uid best hbest.mem
      obtain ⟨replaces, hreplaces⟩ : ∃ p : Prop,
          p = (best.passed = false ∨ best.totalScore < new.totalScore) := ⟨_, rfl⟩
      have : Decidable replaces := hreplaces ▸ inferInstance
      obtain ⟨kept, hkept⟩ : ∃ kept, kept = if replaces then new else best := ⟨_, rfl⟩
      have hrow' : t.itemRows roomId itemId uid = [⟨itemId, kept.scoreId, kept.totalScore,
          (submissions roomId itemId uid ((e, t) :: past)).length⟩] := by
        rw [hrows, hrow, if_neg (List.cons_ne_nil _ _), hsubs, List.map_singleton,
          PlaylistBest.attempted, hkept]
        simp only [Table.row_insert_of_some hold, Option.all_some, hpassed]
        by_cases h : replaces
        · rw [if_pos h, if_pos (by simpa [hreplaces, hdef] using h), hdef]
          rfl
        · rw [if_neg h, if_neg (by simpa [hreplaces, hdef] using h)]
          rfl
      have hmem : kept ∈ submissions roomId itemId uid ((e, t) :: past) := by
        rw [hsubs, hkept]
        split
        · exact List.mem_cons_self
        · exact List.mem_cons_of_mem _ hbest.mem
      rw [hrow', hknown'.holdsBest_iff hmem, hsubs, hkept, hbest.cons_iff hfresh, hreplaces,
        Submission.key_lt, hnew, hrow]
      simp only [Option.mem_some_iff, forall_eq', List.mem_singleton, forall_eq, hold, hpassed]
      cases best.passed <;> cases new.passed <;> simp

/-- A step keeps the law exactly if a play it submits is in order. -/
theorem PlayStep.playlistBestLaw_iff (hknown : Known past s)
    (hend : endState State.empty past = s) (h : PlayStep srv s e t)
    (hlaw : PlaylistBestLaw past s) :
    PlaylistBestLaw ((e, t) :: past) t ↔ FailedInOrder past e t := by
  have hitem := fun roomId itemId uid =>
    @PlayStep.holdsBest_iff _ _ _ _ _ roomId itemId uid hknown hend h hlaw
  constructor
  · intro hlaw'
    unfold FailedInOrder
    split
    · rw [hend]
      exact (hitem _ _ _).mp (hlaw' _ _ _)
    · trivial
  · intro hmeets roomId itemId uid
    rw [hitem]
    intro new hnew
    unfold FailedInOrder at hmeets
    rw [hend] at hmeets
    unfold submitted at hnew
    split at hnew
    · split at hnew
      · next hplace =>
        obtain ⟨rfl, rfl, rfl⟩ := hplace
        exact hmeets new (by simpa [submitted] using hnew)
      · simp at hnew
    · simp at hnew

end Law

/-- **The best play of an item.**  All along a run every item has the first of the best plays of
every user exactly if every failed play has more than the row it meets where that is of a failed
play too, and not more where that is of a passed one. -/
theorem playlist_best_iff {srv : Deployment} {h : List (Event × State)} {s : State}
    (hrun : Runs srv (fun _ _ => True) h s) :
    Every (fun past e t => PlaylistBestLaw ((e, t) :: past) t) h ↔ Every FailedInOrder h := by
  refine hrun.every_iff (I := fun past s => Known past s ∧ PlaylistBestLaw past s) ?_ ?_
  · exact ⟨fun _ _ _ sub hsub => by simp [submissions] at hsub, fun _ _ _ => .inl ⟨rfl, rfl⟩⟩
  · rintro past s e t ⟨hknown, hlaw⟩ hend hstep
    have hiff := hstep.plays.playlistBestLaw_iff hknown hend hlaw
    exact ⟨hiff, fun hmeets => ⟨hknown.step hend hstep.plays, hiff.mpr hmeets⟩⟩

/-- A play that fails with a total. -/
def failedWith (total : Nat) : SubmissionInfo :=
  { fullCombo with
    rank := .f, totalScore := total, totalScoreWithoutMods := total, passed := false }

/-- User 7 plays the item 3 of the room 5 twice, the events with the newest first. -/
def playedTwice (first second : SubmissionInfo) : List Event :=
  [.submitPlaylist 9 {} 5 3 7 2 second, .submitPlaylist 9 {} 5 3 7 1 first, tokenAsked, tokenAsked,
    .register 7 .osu, mapFetched]

/-- A failed play gives way to a passed one. -/
theorem playlist_best_iff_passed :
    Every (fun past e t => PlaylistBestLaw ((e, t) :: past) t)
        (historyOf (State.after plainServer) State.empty (playedTwice (failedWith 500) fullCombo)) ∧
      (endState State.empty (historyOf (State.after plainServer) State.empty
        (playedTwice (failedWith 500) fullCombo))).itemRows 5 3 7 = [⟨3, 2, 1000, 2⟩] :=
  ⟨(playlist_best_iff (Runs.of_accepted (playedTwice (failedWith 500) fullCombo)
    (by decide +kernel))).mpr (by decide +kernel), by decide +kernel⟩

/-- A failed play gives way to a worse one. -/
theorem worse_play_kept : ¬ ∀ (srv : Deployment) (h : List (Event × State)) (s : State),
    Runs srv (fun _ _ => True) h s → PlaylistBestLaw h s := by
  intro hlaw
  have hbest := hlaw plainServer _ _
    (Runs.of_accepted (playedTwice (failedWith 1000) (failedWith 500)) (by decide +kernel)) 5 3 7
  have hrows : (endState State.empty (historyOf (State.after plainServer) State.empty
      (playedTwice (failedWith 1000) (failedWith 500)))).itemRows 5 3 7 = [⟨3, 2, 500, 2⟩] := by
    decide +kernel
  have hsubs : submissions 5 3 7 (historyOf (State.after plainServer) State.empty
      (playedTwice (failedWith 1000) (failedWith 500))) = [⟨2, false, 500⟩, ⟨1, false, 1000⟩] := by
    decide +kernel
  rw [hrows, hsubs] at hbest
  rcases hbest with ⟨-, hnil⟩ | ⟨best, hfirst, hrow⟩
  · simp at hnil
  · have hle := hfirst.le (a := ⟨1, false, 1000⟩) (by simp)
    have hmem := hfirst.mem
    simp only [List.mem_cons, List.not_mem_nil, or_false] at hmem
    rcases hmem with rfl | rfl
    · revert hle
      decide
    · simp at hrow

end Soms.Scores
