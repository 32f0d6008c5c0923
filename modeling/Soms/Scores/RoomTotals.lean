import Mathlib.Algebra.Order.BigOperators.Group.List
import Mathlib.Tactic.Linarith
import Soms.Scores.Derived
import Soms.Scores.PlaylistBest

/-!
# The totals of a room

`ItemAttemptsCount.update` sums the rows of a user in a room when a play is submitted, and the play
is given its PP later, by a finalisation or a retry.
-/

namespace Soms.Scores

open Txn

/-! ## The law -/

namespace State

/-- The scores that the rows of a user in a room point to. -/
def pointed (s : State) (roomId : RoomId) (uid : UserId) : List Score :=
  (s.playlistBest roomId uid).filterMap fun row => s.scores.row row.scoreId

/-- All submitted scores are finalised. -/
def Quiescent (s : State) : Prop := ∀ sid sc, s.scores.row sid = some sc → sc.processed = true

/-- The PP of a score. -/
def ppOf (s : State) (sid : ScoreId) : ℚ := (s.scores.row sid).elim 0 (·.pp)

end State

/-- The totals other than the PP. -/
structure RestOf (s : State) (roomId : RoomId) (uid : UserId) (agg : ItemAttempts) : Prop where
  attempts : agg.attempts = ((s.playlistBest roomId uid).map (·.attempts)).sum
  totalScore : agg.totalScore = ((s.playlistBest roomId uid).map (·.totalScore)).sum
  completed : agg.completed = ((s.pointed roomId uid).filter (·.passed)).length
  accuracy : agg.accuracy = if 0 < agg.completed then
    (((s.pointed roomId uid).filter (·.passed)).map (·.accuracy)).sum / agg.completed else 0

/-- The totals are those of the user's rows in the room and of the scores they point to. -/
structure TotalsOf (s : State) (roomId : RoomId) (uid : UserId) (agg : ItemAttempts) : Prop
    extends RestOf s roomId uid agg where
  pp : agg.pp = ((s.pointed roomId uid).map (·.pp)).sum

/-- Every `ItemAttemptsCount` has the totals. -/
def RoomLaw (s : State) : Prop :=
  ∀ roomId uid agg, s.itemAttempts roomId uid = some agg → TotalsOf s roomId uid agg

/-! ## When PP is given -/

/-- The score passed, is eligible for PP and has none, and the calculation finds some. -/
def State.givenPp (srv : Server) (s : State) (calculated : Option ℚ) (sid : ScoreId) : Bool :=
  (s.scores.row sid).any fun sc => (s.beatmaps.row sc.beatmapId).any fun bm =>
    (sc.checked bm).ranked && srv.grants (s.effectivePolicy sc.beatmapId bm) .pp && sc.passed &&
      srv.modsCanGetPp sc.mode.toInt sc.mods && decide (sc.pp = 0) &&
      calculated.any fun pp => pp ≠ 0

/-- The scores that were given PP after the user's last play in the room. -/
def givenLate (srv : Server) (roomId : RoomId) (uid : UserId) :
    List (Event × State) → List ScoreId
  | [] => []
  | (e, t) :: past =>
    let s := endState State.empty past
    match e with
    | .submitPlaylist _ _ roomId' _ uid' _ _ =>
      if roomId' = roomId ∧ uid' = uid ∧ s.scores.next < t.scores.next then []
      else givenLate srv roomId uid past
    | .finalize calculated sid | .retry calculated sid =>
      if s.givenPp srv calculated sid then sid :: givenLate srv roomId uid past
      else givenLate srv roomId uid past
    | _ => givenLate srv roomId uid past

/-- The event submits a play of the user in the room. -/
def Event.playsIn (roomId : RoomId) (uid : UserId) : Event → Prop
  | .submitPlaylist _ _ roomId' _ uid' _ _ => roomId' = roomId ∧ uid' = uid
  | _ => False

/-- No row of a user who played in a room and is counted there points to a score that was given PP
after the user's last play in the room. -/
def NoneLate (srv : Server) (h : List (Event × State)) (s : State) : Prop :=
  ∀ x ∈ h, match x.1 with
    | .submitPlaylist _ _ roomId _ uid _ _ => (s.itemAttempts roomId uid).isSome = true →
      ∀ row ∈ s.playlistBest roomId uid, row.scoreId ∉ givenLate srv roomId uid h
    | _ => True

instance (srv : Server) (h : List (Event × State)) (s : State) : Decidable (NoneLate srv h s) := by
  unfold NoneLate
  refine @List.decidableBAll _ _ (fun x => ?_) h
  split <;> infer_instance

/-- Players' requests and the finalisation of their scores.  No calculation finds negative PP. -/
def Playing (_ : State) : Event → Prop
  | .finalize calculated _ | .retry calculated _ => ∀ pp ∈ calculated, 0 ≤ pp
  | .applyRank .. | .unrank .. | .clearRank .. | .resolveEvent .. | .sync .. => False
  | _ => True

instance (s : State) : (e : Event) → Decidable (Playing s e)
  | .finalize calculated _ | .retry calculated _ =>
    inferInstanceAs (Decidable (∀ pp ∈ calculated, 0 ≤ pp))
  | .applyRank .. | .unrank .. | .clearRank .. | .resolveEvent .. | .sync .. =>
    inferInstanceAs (Decidable False)
  | .register .. | .fetch .. | .createSolo .. | .createPlaylist .. | .submitSolo ..
  | .submitPlaylist .. => inferInstanceAs (Decidable True)

/-! ## Sums -/

section Sums

variable {s t : State} {roomId : RoomId} {uid : UserId} {agg : ItemAttempts}

theorem pp_pointed (s : State) (rows : List PlaylistBest) :
    ((rows.filterMap fun row => s.scores.row row.scoreId).map (·.pp)).sum =
      (rows.map fun row => s.ppOf row.scoreId).sum := by
  induction rows with
  | nil => rfl
  | cons row rest ih =>
    cases hrow : s.scores.row row.scoreId <;> simp [hrow, State.ppOf] at ih ⊢ <;> exact ih

/-- Leaving positive summands out makes a difference. -/
theorem sum_without_iff {α : Type} {l : List α} {f : α → ℚ} {p : α → Prop} [DecidablePred p]
    (hf : ∀ a ∈ l, p a → 0 < f a) :
    (l.map fun a => if p a then 0 else f a).sum = (l.map f).sum ↔ ∀ a ∈ l, ¬ p a := by
  suffices h : (l.map fun a => if p a then 0 else f a).sum ≤ (l.map f).sum ∧
      ((l.map fun a => if p a then 0 else f a).sum = (l.map f).sum ↔ ∀ a ∈ l, ¬ p a) from h.2
  induction l with
  | nil => simp
  | cons a rest ih =>
    obtain ⟨hle, hiff⟩ := ih fun b hb => hf b (List.mem_cons_of_mem a hb)
    simp only [List.map_cons, List.sum_cons, List.forall_mem_cons]
    by_cases ha : p a
    · have hpos := hf a List.mem_cons_self ha
      simp only [ha, if_true, not_true_eq_false, false_and, iff_false]
      constructor <;> linarith
    · simp only [ha, if_false, not_false_eq_true, true_and, ← hiff]
      constructor
      · linarith
      · exact add_right_inj _

/-- What was played decides the totals other than the PP. -/
theorem RestOf.congr (h : RestOf s roomId uid agg)
    (hrows : t.playlistBest roomId uid = s.playlistBest roomId uid)
    (hresult : ∀ row ∈ s.playlistBest roomId uid,
      (t.scores.row row.scoreId).map Score.result = (s.scores.row row.scoreId).map Score.result) :
    RestOf t roomId uid agg := by
  have hpointed : (t.pointed roomId uid).map Score.result =
      (s.pointed roomId uid).map Score.result := by
    unfold State.pointed
    rw [hrows, List.map_filterMap, List.map_filterMap]
    exact List.filterMap_congr hresult
  have hfilter : ∀ l : List Score, (l.filter (·.passed)).map Score.result =
      (l.map Score.result).filter (·.passed) := by
    intro l
    rw [List.filter_map]
    rfl
  have hpassed : ((t.pointed roomId uid).filter (·.passed)).map Score.result =
      ((s.pointed roomId uid).filter (·.passed)).map Score.result := by
    rw [hfilter, hfilter, hpointed]
  have haccuracy := congrArg (List.map (·.accuracy)) hpassed
  rw [List.map_map, List.map_map] at haccuracy
  have hlength := congrArg List.length hpassed
  rw [List.length_map, List.length_map] at hlength
  refine ⟨by rw [hrows]; exact h.attempts, by rw [hrows]; exact h.totalScore,
    by rw [hlength]; exact h.completed, ?_⟩
  rw [h.accuracy]
  exact congrArg (fun l : List ℚ => if 0 < agg.completed then l.sum / agg.completed else 0)
    haccuracy.symm

end Sums

/-! ## What is given -/

/-- A score with PP has passed with mods that can get PP. -/
def PpSound (srv : Server) (s : State) : Prop :=
  ∀ sid sc, s.scores.row sid = some sc → sc.pp ≠ 0 →
    0 < sc.pp ∧ sc.passed = true ∧ srv.modsCanGetPp sc.mode.toInt sc.mods = true

/-- One score is given PP or keeps what it has, and the other tables of a room stay. -/
structure GivesPp (srv : Server) (s : State) (calculated : Option ℚ) (sid : ScoreId)
    (t : State) : Prop where
  result : ∀ i, (t.scores.row i).map Score.result = (s.scores.row i).map Score.result
  ppOf : ∀ i, t.ppOf i =
    if i = sid ∧ s.givenPp srv calculated sid = true then calculated.getD 0 else s.ppOf i
  playlistBest : t.playlistBest = s.playlistBest
  itemAttempts : t.itemAttempts = s.itemAttempts

section Given

variable {srv : Server} {s t : State} {calculated : Option ℚ} {sid : ScoreId} {sc : Score}

/-- The score that is under `sid` is given PP, or keeps what it has. -/
theorem ppOf_awardPp (hrow : s.scores.row sid = some sc) (policy : EffectivePolicy)
    (hsound : sc.pp ≠ 0 → sc.passed = true ∧ srv.modsCanGetPp sc.mode.toInt sc.mods = true)
    (i : ScoreId) :
    (awardPp srv calculated sid sc policy s).ppOf i =
      if i = sid ∧ (sc.ranked && srv.grants policy .pp && sc.passed &&
          srv.modsCanGetPp sc.mode.toInt sc.mods && decide (sc.pp = 0) &&
            calculated.any fun pp => pp ≠ 0) = true then
        calculated.getD 0
      else s.ppOf i := by
  have hplace : ∀ (u : State) (pp : ℚ), (placePpBest sid sc pp u).ppOf i = u.ppOf i := by
    intro u pp
    unfold placePpBest
    split <;> rfl
  have hgiven : ∀ pp : ℚ,
      ({ s with scores := s.scores.modify sid fun a => { a with pp := pp } } : State).ppOf i =
        if i = sid then pp else s.ppOf i := by
    intro pp
    by_cases hi : i = sid
    · subst hi
      simp [State.ppOf, Table.row_modify, hrow]
    · simp [State.ppOf, Table.row_modify, hi]
  have hself : i = sid → s.ppOf i = sc.pp := by
    rintro rfl
    simp [State.ppOf, hrow]
  by_cases hgrant : (sc.ranked && srv.grants policy .pp) = true
  · rw [awardPp, if_pos hgrant, hgrant, processScorePp]
    have hranked : sc.ranked = true := (Bool.and_eq_true_iff.mp hgrant).1
    by_cases hcan : (sc.passed && srv.modsCanGetPp sc.mode.toInt sc.mods) = true
    · obtain ⟨hpassed, hmods⟩ := Bool.and_eq_true_iff.mp hcan
      simp only [hranked, hpassed, hmods, Bool.and_self, Bool.true_eq_false, if_false, Bool.true_and]
      by_cases hpp : sc.pp = 0
      · cases calculated with
        | none => simp [hpp]
        | some pp =>
          simp only [hpp, ne_eq, not_true_eq_false, if_false, Option.map_some, Option.getD_some, hplace,
            hgiven, decide_true, Bool.true_and, Option.any_some, decide_eq_true_eq]
          by_cases hi : i = sid
          · by_cases hzero : pp = 0
            · simp [hi, hzero, ← hpp, ← hself hi]
            · simp [hi, hzero]
          · simp [hi]
      · simp only [hpp, ne_eq, not_false_eq_true, if_true, Option.map_some, Option.getD_some, hplace,
          hgiven, decide_false, Bool.false_and, Bool.false_eq_true, and_false, if_false]
        split
        · next hi => rw [hself hi]
        · rfl
    · have hzero : sc.pp = 0 := by
        by_contra hpp
        exact hcan (Bool.and_eq_true_iff.mpr (hsound hpp))
      have hcannot : (sc.passed && sc.ranked && srv.modsCanGetPp sc.mode.toInt sc.mods) = false := by
        cases hpassed : sc.passed <;> simp_all
      have hnone : (true && sc.passed && srv.modsCanGetPp sc.mode.toInt sc.mods &&
          decide (sc.pp = 0) && calculated.any fun pp => pp ≠ 0) = false := by
        cases hpassed : sc.passed <;> simp_all
      rw [if_pos hcannot, Option.getD_some, hgiven, hnone]
      simp only [Bool.false_eq_true, and_false, if_false]
      split
      · next hi => rw [hself hi, hzero]
      · rfl
  · rw [awardPp, if_neg hgrant, if_neg]
    rintro ⟨-, h⟩
    simp_all

/-- The PP of the score as a finalisation sees it is that of the score. -/
theorem ppOf_checked (hsc : s.scores.row sid = some sc) (bm : Beatmap) (i : ScoreId) :
    ({ s with scores := s.scores.modify sid fun _ => sc.checked bm } : State).ppOf i = s.ppOf i := by
  by_cases hi : i = sid
  · subst hi
    simp only [State.ppOf, Table.row_modify, if_true, hsc, Option.map_some, Option.elim]
    unfold Score.checked
    split <;> rfl
  · simp [State.ppOf, Table.row_modify, hi]

/-- What a finalisation or a retry awards, in terms of the score before. -/
theorem ppOf_award (hsc : s.scores.row sid = some sc) {bm : Beatmap}
    (hbm : s.beatmaps.row sc.beatmapId = some bm) (hsound : PpSound srv s) (i : ScoreId) :
    (awardPp srv calculated sid (sc.checked bm) (s.effectivePolicy sc.beatmapId bm)
        { s with scores := s.scores.modify sid fun _ => sc.checked bm }).ppOf i =
      if i = sid ∧ s.givenPp srv calculated sid = true then calculated.getD 0 else s.ppOf i := by
  have hplay : (sc.checked bm).passed = sc.passed ∧ (sc.checked bm).mode = sc.mode ∧
      (sc.checked bm).mods = sc.mods ∧ (sc.checked bm).pp = sc.pp := by
    unfold Score.checked
    split <;> exact ⟨rfl, rfl, rfl, rfl⟩
  obtain ⟨hpassed, hmode, hmods, hpp⟩ := hplay
  have hgiven : s.givenPp srv calculated sid = ((sc.checked bm).ranked &&
      srv.grants (s.effectivePolicy sc.beatmapId bm) .pp && sc.passed &&
      srv.modsCanGetPp sc.mode.toInt sc.mods && decide (sc.pp = 0) &&
      calculated.any fun pp => pp ≠ 0) := by
    simp only [State.givenPp, hsc, hbm, Option.any_some]
  rw [ppOf_awardPp (by simp [Table.row_modify, hsc]), ppOf_checked hsc, hgiven, hpassed, hmode, hmods,
    hpp]
  rw [hpp, hpassed, hmode, hmods]
  exact fun hne => (hsound sid sc hsc hne).2

theorem givesPp_finalizeScore {u : Unit} (h : finalizeScore srv calculated sid s = (.ok u, t))
    (hsound : PpSound srv s) : GivesPp srv s calculated sid t := by
  obtain ⟨sc, bm, st, w, hsc, hbm, -, hw, hresult, -, -, ht⟩ := finalizeScore_statistics h
  have hppOf : ∀ i, t.ppOf i = w.ppOf i := by
    intro i
    rw [ht]
    by_cases hi : i = sid
    · subst hi
      cases hrow : w.scores.row i <;> simp [State.ppOf, Table.row_modify, hrow]
    · simp [State.ppOf, Table.row_modify, hi]
  obtain ⟨pp, haward, -⟩ := awardPp_eq srv calculated sid (sc.checked bm)
    (s.effectivePolicy sc.beatmapId bm)
    { s with scores := s.scores.modify sid fun _ => sc.checked bm }
  rw [← hw] at haward
  refine ⟨fun i => ?_, fun i => ?_, ?_, ?_⟩
  · rw [← hresult i, ht]
    show ((w.scores.modify sid _).row i).map Score.result = _
    rw [Table.row_modify]
    split
    · rw [Option.map_map]
      rfl
    · rfl
  · rw [hppOf, hw]
    exact ppOf_award hsc hbm hsound i
  · rw [ht]
    show w.playlistBest = _
    rw [haward]
  · rw [ht]
    show w.itemAttempts = _
    rw [haward]

theorem givesPp_retryPp {u : Unit} (h : retryPp srv calculated sid s = (.ok u, t))
    (hsound : PpSound srv s) : GivesPp srv s calculated sid t := by
  have hplays := plays_retryPp h
  obtain ⟨sc, bm, st, hsc, hbm, -, -, v, w, hv, hcases⟩ := retryPp_ok h
  have haward : ∀ i, t.ppOf i = (awardPp srv calculated sid (sc.checked bm)
      (s.effectivePolicy sc.beatmapId bm) v).ppOf i := by
    intro i
    rcases hcases with ⟨hnot, rfl⟩ | ⟨hgrant, hpp, p, q, rfl⟩
    · rw [awardPp, hnot]
      rfl
    · rw [awardPp, if_pos hgrant, hpp]
      rfl
  refine ⟨State.result_of_plays hplays, fun i => ?_, State.plays_playlistBest hplays,
    State.plays_itemAttempts hplays⟩
  rw [haward, hv]
  exact ppOf_award hsc hbm hsound i

end Given

/-! ## The rows after a play -/

section Rows

variable {s : State} {roomId : RoomId} {itemId : ItemId} {uid : UserId} {sid : ScoreId}
  {total : Nat}

theorem itemAttempts_counted (s : State) : (updateItemAttempts roomId uid s).itemAttempts roomId uid =
    some
      { attempts := ((s.playlistBest roomId uid).map (·.attempts)).sum
        totalScore := ((s.playlistBest roomId uid).map (·.totalScore)).sum
        pp := ((s.pointed roomId uid).map (·.pp)).sum
        completed := ((s.pointed roomId uid).filter (·.passed)).length
        accuracy :=
          if 0 < ((s.pointed roomId uid).filter (·.passed)).length then
            (((s.pointed roomId uid).filter (·.passed)).map (·.accuracy)).sum /
              ((s.pointed roomId uid).filter (·.passed)).length
          else 0 } := by
  show Function.update s.itemAttempts roomId _ roomId uid = _
  rw [Function.update_self, Function.update_self]
  rfl

theorem itemAttempts_counted_of_ne (s : State) {roomId' : RoomId} {uid' : UserId}
    (hne : ¬ (roomId = roomId' ∧ uid = uid')) :
    (updateItemAttempts roomId uid s).itemAttempts roomId' uid' = s.itemAttempts roomId' uid' := by
  show Function.update s.itemAttempts roomId _ roomId' uid' = _
  by_cases hroom : roomId' = roomId
  · subst hroom
    rw [Function.update_self, Function.update_of_ne fun h => hne ⟨rfl, h.symm⟩]
  · rw [Function.update_of_ne hroom]

/-- A row points to the score of the play or to that of an old row. -/
theorem scoreId_counted {row : PlaylistBest}
    (hrow : row ∈ (updateItemAttempts roomId uid
      (processPlaylistBestScore roomId itemId uid sid total s)).playlistBest roomId uid) :
    row.scoreId = sid ∨ ∃ old ∈ s.playlistBest roomId uid, row.scoreId = old.scoreId := by
  rw [playlistBest_counted] at hrow
  split at hrow
  · obtain ⟨old, hold, rfl⟩ := List.mem_map.mp hrow
    split
    · unfold PlaylistBest.attempted
      dsimp only
      split
      · exact .inl rfl
      · exact .inr ⟨old, hold, rfl⟩
    · exact .inr ⟨old, hold, rfl⟩
  · rcases List.mem_append.mp hrow with hold | hnew
    · exact .inr ⟨row, hold, rfl⟩
    · rw [List.mem_singleton.mp hnew]
      exact .inl rfl

end Rows

/-! ## Steps -/

theorem givenPp_eq_true {srv : Server} {s : State} {calculated : Option ℚ} {sid : ScoreId}
    (h : s.givenPp srv calculated sid = true) :
    ∃ sc pp, s.scores.row sid = some sc ∧ sc.pp = 0 ∧ sc.passed = true ∧
      srv.modsCanGetPp sc.mode.toInt sc.mods = true ∧ calculated = some pp ∧ pp ≠ 0 := by
  obtain ⟨sc, hsc, h⟩ := (Option.any_eq_true _ _).mp h
  obtain ⟨bm, -, h⟩ := (Option.any_eq_true _ _).mp h
  simp only [Bool.and_eq_true, decide_eq_true_eq] at h
  obtain ⟨⟨⟨⟨-, hpassed⟩, hmods⟩, hzero⟩, hany⟩ := h
  obtain ⟨pp, hpp, hne⟩ := (Option.any_eq_true _ _).mp hany
  exact ⟨sc, pp, hsc, hzero, hpassed, hmods, hpp, by simpa using hne⟩

/-- Scores are added without PP, and the others stay. -/
def Grown (s t : State) : Prop :=
  ∀ i, t.scores.row i = s.scores.row i ∨
    s.scores.row i = none ∧ ∃ sc, t.scores.row i = some sc ∧ sc.pp = 0

namespace Grown

variable {srv : Server} {s t : State}

theorem of_eq (h : t.scores = s.scores) : Grown s t := fun i => .inl (by rw [h])

theorem of_insert {sc : Score} (hpp : sc.pp = 0) (h : t.scores = s.scores.insert sc) :
    Grown s t := by
  intro i
  rw [h, Table.row_insert]
  split
  · next hi =>
    subst hi
    exact .inr ⟨Table.row_next _, sc, rfl, hpp⟩
  · exact .inl rfl

theorem ppOf (h : Grown s t) (i : ScoreId) : t.ppOf i = s.ppOf i := by
  rcases h i with hsame | ⟨hnone, sc, hsc, hpp⟩
  · rw [State.ppOf, hsame, State.ppOf]
  · simp [State.ppOf, hnone, hsc, hpp]

theorem row (h : Grown s t) {i : ScoreId} (hi : (s.scores.row i).isSome = true) :
    t.scores.row i = s.scores.row i := by
  rcases h i with hsame | ⟨hnone, -⟩
  · exact hsame
  · simp [hnone] at hi

theorem sound (h : Grown s t) (hs : PpSound srv s) : PpSound srv t := by
  intro i sc hsc hne
  rcases h i with hsame | ⟨-, sc', hsc', hpp⟩
  · exact hs i sc (hsame ▸ hsc) hne
  · rw [hsc'] at hsc
    exact absurd (Option.some.inj hsc ▸ hpp) hne

end Grown

/-- The totals are those of players, and right but for the PP that was given late. -/
structure Counted (srv : Server) (h : List (Event × State)) (s : State) : Prop where
  played : ∀ roomId uid, (s.itemAttempts roomId uid).isSome = true →
    ∃ x ∈ h, x.1.playsIn roomId uid
  sound : PpSound srv s
  rows : ∀ roomId uid, ∀ row ∈ s.playlistBest roomId uid,
    (s.scores.row row.scoreId).isSome = true
  late : ∀ roomId uid, ∀ sid ∈ givenLate srv roomId uid h, 0 < s.ppOf sid
  rest : ∀ roomId uid agg, s.itemAttempts roomId uid = some agg → RestOf s roomId uid agg
  pp : ∀ roomId uid agg, s.itemAttempts roomId uid = some agg → agg.pp =
    ((s.playlistBest roomId uid).map fun row =>
      if row.scoreId ∈ givenLate srv roomId uid h then 0 else s.ppOf row.scoreId).sum

namespace Counted

variable {srv : Server} {past h : List (Event × State)} {x : Event × State} {s t : State}

/-- The law holds where no PP was given late. -/
theorem roomLaw_iff (hs : Counted srv h s) : RoomLaw s ↔ NoneLate srv h s := by
  have hpp : ∀ {roomId uid agg}, s.itemAttempts roomId uid = some agg →
      (agg.pp = ((s.pointed roomId uid).map (·.pp)).sum ↔
        ∀ row ∈ s.playlistBest roomId uid, row.scoreId ∉ givenLate srv roomId uid h) := by
    intro roomId uid agg hagg
    rw [State.pointed, pp_pointed, hs.pp roomId uid agg hagg]
    exact sum_without_iff fun row _ hlate => hs.late roomId uid _ hlate
  constructor
  · intro hlaw x _
    split
    · intro hsome
      obtain ⟨agg, hagg⟩ := Option.isSome_iff_exists.mp hsome
      exact (hpp hagg).mp (hlaw _ _ agg hagg).pp
    · trivial
  · intro hnone roomId uid agg hagg
    refine ⟨hs.rest roomId uid agg hagg, (hpp hagg).mpr ?_⟩
    obtain ⟨x, hx, hplays⟩ := hs.played roomId uid (by rw [hagg]; rfl)
    have hthis := hnone x hx
    unfold Event.playsIn at hplays
    split at hplays
    · next heq =>
      obtain ⟨rfl, rfl⟩ := hplays
      rw [heq] at hthis
      exact hthis (by rw [hagg]; rfl)
    · exact hplays.elim

theorem empty (srv : Server) : Counted srv [] State.empty := by
  constructor <;> simp [PpSound, State.empty, givenLate]

/-- A step that leaves the rooms alone. -/
theorem grow (hs : Counted srv past s) (hgrown : Grown s t)
    (hbest : t.playlistBest = s.playlistBest) (hitems : t.itemAttempts = s.itemAttempts)
    (hlate : ∀ roomId uid, givenLate srv roomId uid (x :: past) = givenLate srv roomId uid past) :
    Counted srv (x :: past) t where
  played roomId uid hsome := by
    rw [hitems] at hsome
    obtain ⟨y, hy, hplays⟩ := hs.played roomId uid hsome
    exact ⟨y, List.mem_cons_of_mem x hy, hplays⟩
  sound := hgrown.sound hs.sound
  rows roomId uid row hrow := by
    rw [hbest] at hrow
    rw [hgrown.row (hs.rows roomId uid row hrow)]
    exact hs.rows roomId uid row hrow
  late roomId uid sid hsid := by
    rw [hgrown.ppOf]
    exact hs.late roomId uid sid (hlate roomId uid ▸ hsid)
  rest roomId uid agg hagg := by
    rw [hitems] at hagg
    refine (hs.rest roomId uid agg hagg).congr (by rw [hbest]) fun row hrow => ?_
    rw [hgrown.row (hs.rows roomId uid row hrow)]
  pp roomId uid agg hagg := by
    rw [hitems] at hagg
    simp only [hs.pp roomId uid agg hagg, hbest, hlate, hgrown.ppOf]

/-- A score is given its PP. -/
theorem give (hs : Counted srv past s) {calculated : Option ℚ} {sid : ScoreId}
    (hgives : GivesPp srv s calculated sid t) (hcalculated : ∀ pp ∈ calculated, 0 ≤ pp)
    (hlate : ∀ roomId uid, givenLate srv roomId uid (x :: past) =
      if s.givenPp srv calculated sid then sid :: givenLate srv roomId uid past
      else givenLate srv roomId uid past) :
    Counted srv (x :: past) t := by
  have hpos : s.givenPp srv calculated sid = true → 0 < calculated.getD 0 ∧ s.ppOf sid = 0 := by
    intro hgiven
    obtain ⟨sc, pp, hsc, hzero, -, -, rfl, hpp⟩ := givenPp_eq_true hgiven
    refine ⟨lt_of_le_of_ne (hcalculated pp rfl) (Ne.symm hpp), ?_⟩
    simp [State.ppOf, hsc, hzero]
  refine ⟨fun roomId uid hsome => ?_, fun i sc' hsc' hne => ?_, fun roomId uid row hrow => ?_,
    fun roomId uid i hi => ?_, fun roomId uid agg hagg => ?_, fun roomId uid agg hagg => ?_⟩
  · rw [hgives.itemAttempts] at hsome
    obtain ⟨y, hy, hplays⟩ := hs.played roomId uid hsome
    exact ⟨y, List.mem_cons_of_mem x hy, hplays⟩
  · have hrow := hgives.result i
    rw [hsc', Option.map_some] at hrow
    obtain ⟨sc, hsc, hresult⟩ := Option.map_eq_some_iff.mp hrow.symm
    have hplay : sc.result.passed = sc'.result.passed ∧ sc.result.mode = sc'.result.mode ∧
        sc.result.mods = sc'.result.mods := by rw [hresult]; exact ⟨rfl, rfl, rfl⟩
    obtain ⟨hpassed, hmode, hmods⟩ : sc.passed = sc'.passed ∧ sc.mode = sc'.mode ∧
      sc.mods = sc'.mods := hplay
    rw [← hpassed, ← hmode, ← hmods]
    have hpp : sc'.pp = t.ppOf i := by simp [State.ppOf, hsc']
    rw [hpp, hgives.ppOf i] at hne ⊢
    split at hne
    · next hgiven =>
      rw [if_pos hgiven]
      obtain ⟨rfl, hgiven⟩ := hgiven
      obtain ⟨sc₀, _, hsc₀, -, hpassed, hmods, -⟩ := givenPp_eq_true hgiven
      obtain rfl := Option.some.inj (hsc.symm.trans hsc₀)
      exact ⟨(hpos hgiven).1, hpassed, hmods⟩
    · next hnot =>
      rw [if_neg hnot]
      have hold : s.ppOf i = sc.pp := by simp [State.ppOf, hsc]
      rw [hold] at hne ⊢
      exact hs.sound i sc hsc hne
  · rw [hgives.playlistBest] at hrow
    have hsome := congrArg Option.isSome (hgives.result row.scoreId)
    rw [Option.isSome_map, Option.isSome_map, hs.rows roomId uid row hrow] at hsome
    exact hsome
  · rw [hgives.ppOf]
    split
    · next hgiven => exact (hpos hgiven.2).1
    · next hnot =>
      refine hs.late roomId uid i ?_
      rw [hlate] at hi
      split at hi
      · next hgiven =>
        exact (List.mem_cons.mp hi).resolve_left fun h => hnot ⟨h, hgiven⟩
      · exact hi
  · rw [hgives.itemAttempts] at hagg
    exact (hs.rest roomId uid agg hagg).congr (by rw [hgives.playlistBest]) fun row _ =>
      hgives.result row.scoreId
  · rw [hgives.itemAttempts] at hagg
    rw [hs.pp roomId uid agg hagg, hgives.playlistBest]
    refine congrArg List.sum (List.map_congr_left fun row _ => ?_)
    rw [hlate, hgives.ppOf]
    by_cases hgiven : s.givenPp srv calculated sid = true
    · by_cases hrow : row.scoreId = sid
      · simp [hgiven, hrow, (hpos hgiven).2]
      · simp [hgiven, hrow]
    · simp [hgiven]

/-- The rows of a room are counted anew. -/
theorem count (hs : Counted srv past s) {roomId : RoomId} {itemId : ItemId} {uid : UserId}
    {tokenId : TokenId} {sc : Score} (hpp : sc.pp = 0)
    (ht : t = updateItemAttempts roomId uid (processPlaylistBestScore roomId itemId uid
      s.scores.next sc.totalScore (s.linked tokenId sc)))
    (hx : x.1.playsIn roomId uid)
    (hlate : ∀ roomId' uid', givenLate srv roomId' uid' (x :: past) =
      if roomId = roomId' ∧ uid = uid' then [] else givenLate srv roomId' uid' past) :
    Counted srv (x :: past) t := by
  have hscores : t.scores = s.scores.insert sc := by rw [ht]; rfl
  have hgrown : Grown s t := .of_insert hpp hscores
  have hnext : (t.scores.row s.scores.next).isSome = true := by rw [hscores]; simp
  have hstay : ∀ i, (s.scores.row i).isSome = true → (t.scores.row i).isSome = true := by
    intro i hi
    rw [hgrown.row hi]
    exact hi
  have hother : ∀ roomId' uid', ¬ (roomId = roomId' ∧ uid = uid') →
      t.playlistBest roomId' uid' = s.playlistBest roomId' uid' ∧
        t.itemAttempts roomId' uid' = s.itemAttempts roomId' uid' := by
    intro roomId' uid' hne
    rw [ht]
    exact ⟨playlistBest_counted_of_ne _ hne _ _ _, itemAttempts_counted_of_ne _ hne⟩
  refine ⟨fun roomId' uid' hsome => ?_, hgrown.sound hs.sound, fun roomId' uid' row hrow => ?_,
    fun roomId' uid' i hi => ?_, fun roomId' uid' agg hagg => ?_, fun roomId' uid' agg hagg => ?_⟩
  · by_cases hplace : roomId = roomId' ∧ uid = uid'
    · obtain ⟨rfl, rfl⟩ := hplace
      exact ⟨x, List.mem_cons_self, hx⟩
    · rw [(hother _ _ hplace).2] at hsome
      obtain ⟨y, hy, hplays⟩ := hs.played roomId' uid' hsome
      exact ⟨y, List.mem_cons_of_mem x hy, hplays⟩
  · by_cases hplace : roomId = roomId' ∧ uid = uid'
    · obtain ⟨rfl, rfl⟩ := hplace
      rw [ht] at hrow
      rcases scoreId_counted hrow with hid | ⟨row', hrow', hid⟩
      · rw [hid]
        exact hnext
      · rw [hid]
        exact hstay _ (hs.rows roomId uid row' hrow')
    · rw [(hother _ _ hplace).1] at hrow
      exact hstay _ (hs.rows roomId' uid' row hrow)
  · rw [hlate] at hi
    rw [hgrown.ppOf]
    split at hi
    · simp at hi
    · exact hs.late roomId' uid' i hi
  · by_cases hplace : roomId = roomId' ∧ uid = uid'
    · obtain ⟨rfl, rfl⟩ := hplace
      rw [ht, itemAttempts_counted] at hagg
      rw [ht, ← Option.some.inj hagg]
      exact ⟨rfl, rfl, rfl, rfl⟩
    · rw [(hother _ _ hplace).2] at hagg
      refine (hs.rest roomId' uid' agg hagg).congr (hother _ _ hplace).1 fun row hrow => ?_
      rw [hgrown.row (hs.rows roomId' uid' row hrow)]
  · by_cases hplace : roomId = roomId' ∧ uid = uid'
    · rw [hlate, if_pos hplace]
      obtain ⟨rfl, rfl⟩ := hplace
      simp only [List.not_mem_nil, if_false, ← pp_pointed]
      rw [ht, itemAttempts_counted] at hagg
      rw [ht, ← Option.some.inj hagg]
      rfl
    · rw [(hother _ _ hplace).2] at hagg
      rw [hlate, if_neg hplace, (hother _ _ hplace).1]
      simp only [hgrown.ppOf]
      exact hs.pp roomId' uid' agg hagg

end Counted

theorem newScore_pp (srv : Server) (now : Time) (token : ScoreToken) (mode : GameMode)
    (bm : Beatmap) (policy : EffectivePolicy) (info : SubmissionInfo) :
    (newScore srv now token mode bm policy info).pp = 0 := by
  unfold newScore
  dsimp only
  split
  · split <;> rfl
  · rfl

/-- **A step** of players keeps the totals right but for the PP that is given late. -/
theorem Counted.step {srv : Deployment} {past : List (Event × State)} {s t : State} {e : Event}
    (hs : Counted srv.toServer past s) (hend : endState State.empty past = s)
    (hplaying : Playing s e) (h : Step srv s e t) : Counted srv.toServer ((e, t) :: past) t := by
  obtain ⟨u, h⟩ := h
  cases e with
  | register uid mode =>
    simp only [serve, bind_ok, refuse_ok, write_ok] at h
    obtain ⟨_, _, ⟨-, rfl⟩, rfl⟩ := h
    exact hs.grow (.of_eq rfl) rfl rfl fun _ _ => rfl
  | fetch b v =>
    simp only [serve, fetchBeatmap, bind_ok, refuse_ok, write_ok] at h
    obtain ⟨_, _, ⟨-, rfl⟩, _, _, rfl, rfl⟩ := h
    exact hs.grow (.of_eq rfl) rfl rfl fun _ _ => rfl
  | createSolo now uid b checksum version =>
    simp only [serve, createSoloScore, bind_ok, refuse_ok, read_ok, write_ok, pure_ok] at h
    obtain ⟨_, _, ⟨_, _, ⟨-, rfl⟩, _, _, ⟨rfl, rfl⟩, _, _, rfl, rfl, rfl⟩, -, rfl⟩ := h
    exact hs.grow (.of_eq rfl) rfl rfl fun _ _ => rfl
  | createPlaylist now roomId itemId uid b checksum version =>
    simp only [serve, createPlaylistScore, bind_ok, refuse_ok, read_ok, write_ok, pure_ok] at h
    obtain ⟨_, _, ⟨_, _, ⟨-, rfl⟩, _, _, ⟨-, rfl⟩, _, _, ⟨rfl, rfl⟩, _, _, rfl, rfl, rfl⟩, -,
      rfl⟩ := h
    exact hs.grow (.of_eq rfl) rfl rfl fun _ _ => rfl
  | submitSolo now uid tokenId info =>
    simp only [serve, bind_ok, pure_ok] at h
    obtain ⟨⟨sid, created⟩, _, hsub, -, rfl⟩ := h
    obtain ⟨token, -, -, hcases⟩ := submitScore_ok hsub
    rcases hcases with ⟨-, -, rfl⟩ | ⟨-, -, -, bm, mode, info', -, -, rfl⟩
    · exact hs.grow (.of_eq rfl) rfl rfl fun _ _ => rfl
    · exact hs.grow (.of_insert (newScore_pp ..) rfl) rfl rfl fun _ _ => rfl
  | submitPlaylist now view roomId itemId uid tokenId info =>
    obtain ⟨token, -, -, -, -, hcases⟩ := submitPlaylistScore_ok h
    rcases hcases with ⟨-, rfl⟩ | ⟨-, bm, mode, info', -, -, sc, hsc, ht⟩
    · exact hs.grow (.of_eq rfl) rfl rfl fun roomId uid => by simp [givenLate, hend]
    · refine hs.count (hsc ▸ newScore_pp ..) ht ⟨rfl, rfl⟩ fun roomId' uid' => ?_
      have hnext : s.scores.next < t.scores.next := by
        rw [ht]
        exact Nat.lt_succ_self _
      simp only [givenLate, hend, hnext, and_true]
  | finalize calculated sid =>
    exact hs.give (givesPp_finalizeScore h hs.sound) hplaying fun _ _ => by simp [givenLate, hend]
  | retry calculated sid =>
    exact hs.give (givesPp_retryPp h hs.sound) hplaying fun _ _ => by simp [givenLate, hend]
  | applyRank | unrank | clearRank | resolveEvent | sync => exact hplaying.elim

/-- **The totals of a room.**  In every state that players reach, and so in those where all scores
are finalised, the totals are right exactly if no row points to a score that was given PP after the
user's last play in the room. -/
theorem room_totals_iff {srv : Deployment} {h : List (Event × State)} {s : State}
    (hrun : Runs srv Playing h s) : RoomLaw s ↔ NoneLate srv.toServer h s := by
  have hcounted : Counted srv.toServer h s ∧ endState State.empty h = s :=
    hrun.invariant (I := fun h s => Counted srv.toServer h s ∧ endState State.empty h = s)
      (fun _ _ _ _ hs hplaying hstep => ⟨hs.1.step hs.2 hplaying hstep, rfl⟩) ⟨.empty _, rfl⟩
  exact hcounted.1.roomLaw_iff

/-- User 7 plays the item 3 of the room 5, the newest event first, and gets 50 PP. -/
def playedForPp : List Event :=
  [.finalize (some 50) 1, .submitPlaylist 9 {} 5 3 7 1 fullCombo, tokenAsked, tokenAsked,
    .register 7 .osu, mapFetched]

/-- A second play counts the PP of the first, which stays the best. -/
theorem room_totals_iff_counted :
    RoomLaw (endState State.empty (historyOf (State.after plainServer) State.empty
      (.finalize none 2 :: .submitPlaylist 9 {} 5 3 7 2 (failedWith 500) :: playedForPp))) ∧
    ((endState State.empty (historyOf (State.after plainServer) State.empty
      (.finalize none 2 :: .submitPlaylist 9 {} 5 3 7 2 (failedWith 500) :: playedForPp))).itemAttempts
        5 7).map (·.pp) = some 50 :=
  ⟨(room_totals_iff (Runs.of_accepted (.finalize none 2 ::
      .submitPlaylist 9 {} 5 3 7 2 (failedWith 500) :: playedForPp) (by decide +kernel))).mpr
    (by decide +kernel), by decide +kernel⟩

/-- The first play is counted without its PP, and nothing counts again. -/
theorem pp_not_counted : ¬ ∀ (srv : Deployment) (h : List (Event × State)) (s : State),
    Runs srv Playing h s → s.Quiescent → RoomLaw s := by
  intro hlaw
  obtain ⟨s, hs⟩ : ∃ s, s = endState State.empty (historyOf (State.after plainServer) State.empty
    playedForPp) := ⟨_, rfl⟩
  have hquiescent : s.Quiescent := by
    intro sid sc hsc
    have hcount : s.scores.count (fun sc => !sc.processed) = 0 := by
      rw [hs]
      decide +kernel
    simpa using Table.count_eq_zero.mp hcount sid sc hsc
  have htotals := hlaw plainServer _ s
    (hs ▸ Runs.of_accepted playedForPp (by decide +kernel)) hquiescent 5 7
  have hagg : (s.itemAttempts 5 7).map (·.pp) = some 0 := by
    rw [hs]
    decide +kernel
  have hsum : ((s.pointed 5 7).map (·.pp)).sum = 50 := by
    rw [hs]
    decide +kernel
  obtain ⟨agg, hagg, hzero⟩ := Option.map_eq_some_iff.mp hagg
  have hpp := (htotals agg hagg).pp
  rw [hsum, hzero] at hpp
  norm_num at hpp

end Soms.Scores
