import Soms.Scores.Derived

/-!
# The best score of every mod set

A key has one leaderboard row for each mod set, and its highest row is the user's best.  Where a
score of a mod set that has a row beats the best row of another mod set, `_process_statistics`
deletes the latter, so that its mod set is left without a row.
-/

namespace Soms.Scores

open Txn

/-! ## The rows of one key -/

/-- Every mod set that was played has one row, that of a score with the highest total. -/
def BestOfMods (plays rows : List BestRow) : Prop :=
  ∀ play ∈ plays, ∃ best ∈ plays, rows.filter (fun row => row.mods = play.mods) = [best] ∧
    ∀ other ∈ plays, other.mods = play.mods → other.totalScore ≤ best.totalScore

/-- The rows are of different scores that were played. -/
structure RowsOf (plays rows : List BestRow) : Prop where
  ids : (rows.map (·.scoreId)).Nodup
  played : ∀ row ∈ rows, row ∈ plays

section Rows

variable {plays rows : List BestRow} {new x : BestRow} {old : ScoreId} {m : List String}

/-- Rows change their scores and keep their mods. -/
theorem filter_replaceRow (old : ScoreId) (new : BestRow) (rows : List BestRow) (m : List String) :
    (replaceRow old new rows).filter (fun row => row.mods = m) =
      replaceRow old new (rows.filter fun row => row.mods = m) := by
  unfold replaceRow
  rw [List.filter_map]
  refine congrArg (List.map _) (List.filter_congr fun row _ => ?_)
  simp only [Function.comp_apply]
  split <;> rfl

theorem replaceRow_of_ne (h : ∀ row ∈ rows, row.scoreId ≠ old) :
    replaceRow old new rows = rows := by
  unfold replaceRow
  exact (List.map_congr_left fun row hrow => if_neg (h row hrow)).trans (List.map_id _)

theorem replaceRow_single (hmods : x.mods = new.mods) : replaceRow x.scoreId new [x] = [new] := by
  cases new
  cases x
  simp_all [replaceRow]

namespace RowsOf

variable (h : RowsOf plays rows)
include h

theorem eq_of_scoreId {y : BestRow} (hx : x ∈ rows) (hy : y ∈ rows)
    (hid : x.scoreId = y.scoreId) : x = y :=
  List.inj_on_of_nodup_map h.ids hx hy hid

/-- Replacing a row of one mod set leaves the rows of the others. -/
theorem filter_replaceRow_of_ne (hx : x ∈ rows) (hmods : x.mods = new.mods) (hne : m ≠ new.mods) :
    (replaceRow x.scoreId new rows).filter (fun row => row.mods = m) =
      rows.filter fun row => row.mods = m := by
  rw [filter_replaceRow]
  refine replaceRow_of_ne fun row hrow hid => hne ?_
  obtain ⟨hrow, hm⟩ := List.mem_filter.mp hrow
  rw [← hmods, ← h.eq_of_scoreId hrow hx hid]
  exact (of_decide_eq_true hm).symm

theorem replaceRow (hx : x ∈ rows) (hmods : x.mods = new.mods)
    (hfresh : ∀ row ∈ rows, row.scoreId ≠ new.scoreId) :
    RowsOf (new :: plays) (replaceRow x.scoreId new rows) where
  ids := by
    unfold Scores.replaceRow
    rw [List.map_map]
    refine List.Nodup.map_on (fun a ha b hb hab => ?_) (List.Nodup.of_map _ h.ids)
    simp only [Function.comp_apply] at hab
    by_cases hax : a.scoreId = x.scoreId <;> by_cases hbx : b.scoreId = x.scoreId <;>
      simp only [hax, hbx, if_true, if_false] at hab
    · exact h.eq_of_scoreId ha hb (hax.trans hbx.symm)
    · exact absurd hab.symm (hfresh b hb)
    · exact absurd hab (hfresh a ha)
    · exact h.eq_of_scoreId ha hb hab
  played row hrow := by
    obtain ⟨old, hold, rfl⟩ := List.mem_map.mp hrow
    split
    · next hid =>
      obtain rfl := h.eq_of_scoreId hold hx hid
      rw [hmods]
      exact List.mem_cons_self
    · exact List.mem_cons_of_mem _ (h.played old hold)

theorem later (new : BestRow) : RowsOf (new :: plays) rows :=
  ⟨h.ids, fun row hrow => List.mem_cons_of_mem _ (h.played row hrow)⟩

theorem filter (p : BestRow → Bool) : RowsOf plays (rows.filter p) :=
  ⟨h.ids.sublist (List.filter_sublist.map _),
    fun row hrow => h.played row (List.mem_filter.mp hrow).1⟩

theorem append (hfresh : ∀ row ∈ rows, row.scoreId ≠ new.scoreId) :
    RowsOf (new :: plays) (rows ++ [new]) where
  ids := by
    rw [List.map_append, List.map_singleton, List.nodup_append]
    refine ⟨h.ids, List.nodup_singleton _, fun a ha b hb => ?_⟩
    obtain ⟨row, hrow, rfl⟩ := List.mem_map.mp ha
    rw [List.mem_singleton.mp hb]
    exact hfresh row hrow
  played row hrow := by
    rcases List.mem_append.mp hrow with hrow | hrow
    · exact List.mem_cons_of_mem _ (h.played row hrow)
    · rw [List.mem_singleton.mp hrow]
      exact List.mem_cons_self

end RowsOf

/-- The new score gives way to no best row of another mod set, and it replaces the row of its own
exactly where that is right. -/
def PlacesRight (difference : Int) (new : BestRow) (best mod : BestRow) : Prop :=
  if best.scoreId = mod.scoreId then
    if 0 < difference then mod.totalScore ≤ new.totalScore else new.totalScore ≤ mod.totalScore
  else difference ≤ 0

instance (difference : Int) (new best mod : BestRow) :
    Decidable (PlacesRight difference new best mod) := by
  unfold PlacesRight
  infer_instance

section Place

variable {srv : Server}

/-- The rows stay rows of different scores that were played. -/
theorem RowsOf.placeBestRow (h : RowsOf plays rows)
    (hfresh : ∀ row ∈ rows, row.scoreId ≠ new.scoreId) (difference : Int) :
    RowsOf (new :: plays) (placeBestRow new difference (srv.first rows)
      (srv.first (rows.filter fun row => row.mods = new.mods)) rows) := by
  unfold Scores.placeBestRow
  split
  · next best mod hbest hmod =>
    obtain ⟨hmem, -⟩ := srv.first_some _ _ hmod
    obtain ⟨hmem, hmods⟩ := List.mem_filter.mp hmem
    have hmods : mod.mods = new.mods := of_decide_eq_true hmods
    split
    · next hid =>
      split
      · rw [hid]
        exact h.replaceRow hmem hmods hfresh
      · exact h.later new
    · next hid =>
      dsimp only
      obtain ⟨rest, hrest⟩ : ∃ rest, rest =
          if 0 < difference then rows.filter fun row => row.scoreId ≠ best.scoreId else rows :=
        ⟨_, rfl⟩
      have hof : RowsOf plays rest := by
        rw [hrest]
        split
        · exact h.filter _
        · exact h
      have hsub : ∀ row ∈ rest, row ∈ rows := by
        intro row hrow
        rw [hrest] at hrow
        split at hrow
        · exact (List.mem_filter.mp hrow).1
        · exact hrow
      have hmod' : mod ∈ rest := by
        rw [hrest]
        split
        · exact List.mem_filter.mpr ⟨hmem, by simpa using Ne.symm hid⟩
        · exact hmem
      rw [← hrest]
      split
      · exact hof.replaceRow hmod' hmods fun row hrow => hfresh row (hsub row hrow)
      · exact hof.later new
  · exact h.append hfresh

/-- Where the other mod sets keep their rows, the law is about the new score's. -/
theorem bestOfMods_cons (hlaw : BestOfMods plays rows) {rows' : List BestRow} {best : BestRow}
    (hothers : ∀ m, m ≠ new.mods → rows'.filter (fun row => row.mods = m) =
      rows.filter fun row => row.mods = m)
    (hrow : rows'.filter (fun row => row.mods = new.mods) = [best]) (hbest : best ∈ new :: plays) :
    BestOfMods (new :: plays) rows' ↔ new.totalScore ≤ best.totalScore ∧
      ∀ other ∈ plays, other.mods = new.mods → other.totalScore ≤ best.totalScore := by
  constructor
  · intro hlaw'
    obtain ⟨best', -, hrow', hmax⟩ := hlaw' new List.mem_cons_self
    obtain rfl : best = best' := by simpa [hrow] using hrow'
    exact ⟨hmax new List.mem_cons_self rfl, fun other hother =>
      hmax other (List.mem_cons_of_mem _ hother)⟩
  · rintro ⟨hnew, hmax⟩ play hplay
    by_cases hmods : play.mods = new.mods
    · refine ⟨best, hbest, by rw [hmods]; exact hrow, fun other hother hsame => ?_⟩
      rcases List.mem_cons.mp hother with rfl | hother
      · exact hnew
      · exact hmax other hother (hsame.trans hmods)
    · have hplay : play ∈ plays := by
        refine (List.mem_cons.mp hplay).resolve_left ?_
        rintro rfl
        exact hmods rfl
      obtain ⟨old, hold, hrow', hmax'⟩ := hlaw play hplay
      refine ⟨old, List.mem_cons_of_mem _ hold, by rw [hothers _ hmods]; exact hrow', ?_⟩
      intro other hother hsame
      rcases List.mem_cons.mp hother with rfl | hother
      · exact absurd hsame.symm hmods
      · exact hmax' other hother hsame

/-- **One score.**  Every mod set keeps its best row exactly if the score is placed right. -/
theorem bestOfMods_placeBestRow (h : RowsOf plays rows) (hlaw : BestOfMods plays rows)
    (difference : Int) :
    BestOfMods (new :: plays) (placeBestRow new difference (srv.first rows)
        (srv.first (rows.filter fun row => row.mods = new.mods)) rows) ↔
      ∀ best ∈ srv.first rows, ∀ mod ∈ srv.first (rows.filter fun row => row.mods = new.mods),
        PlacesRight difference new best mod := by
  cases hmod : srv.first (rows.filter fun row => row.mods = new.mods) with
  | none =>
    have hnone := srv.first_none _ hmod
    have hplaced : placeBestRow new difference (srv.first rows) none rows = rows ++ [new] := by
      unfold placeBestRow
      split <;> simp_all
    rw [hplaced, bestOfMods_cons hlaw ?_ ?_ (List.mem_cons_self : new ∈ new :: plays)]
    · simp only [Option.not_mem_none, false_imp_iff, implies_true, iff_true]
      refine ⟨Nat.le_refl _, fun other hother hmods => ?_⟩
      obtain ⟨best, -, hrow, -⟩ := hlaw other hother
      rw [hmods, hnone] at hrow
      simp at hrow
    · intro m hm
      simp [List.filter_append, Ne.symm hm]
    · rw [List.filter_append, hnone]
      simp
  | some mod =>
    obtain ⟨hmem, -⟩ := srv.first_some _ _ hmod
    obtain ⟨hmem, hmods⟩ := List.mem_filter.mp hmem
    have hmods : mod.mods = new.mods := of_decide_eq_true hmods
    obtain ⟨mod', -, hrow, hmax⟩ := hlaw mod (h.played mod hmem)
    obtain rfl : mod = mod' := by
      have : mod ∈ rows.filter fun row => row.mods = mod.mods := List.mem_filter.mpr ⟨hmem, by simp⟩
      rw [hrow] at this
      exact List.mem_singleton.mp this
    rw [hmods] at hrow hmax
    cases hbest : srv.first rows with
    | none =>
      rw [srv.first_none _ hbest] at hmem
      simp at hmem
    | some best =>
      obtain ⟨hbestMem, -⟩ := srv.first_some _ _ hbest
      simp only [Option.mem_some_iff, forall_eq', placeBestRow, PlacesRight]
      have hreplaced : ∀ {rest : List BestRow}, RowsOf plays rest → mod ∈ rest →
          rest.filter (fun row => row.mods = new.mods) = [mod] →
          (replaceRow mod.scoreId new rest).filter (fun row => row.mods = new.mods) = [new] := by
        intro rest hof hmem' hrest
        rw [filter_replaceRow, hrest, replaceRow_single hmods]
      by_cases hid : best.scoreId = mod.scoreId
      · rw [if_pos hid, if_pos hid, hid]
        by_cases hpos : 0 < difference
        · rw [if_pos hpos, if_pos hpos, bestOfMods_cons hlaw
            (fun m hm => h.filter_replaceRow_of_ne hmem hmods hm) (hreplaced h hmem hrow)
            List.mem_cons_self]
          exact ⟨fun hnew => hnew.2 mod (h.played mod hmem) hmods, fun hle =>
            ⟨Nat.le_refl _, fun other hother hsame => (hmax other hother hsame).trans hle⟩⟩
        · rw [if_neg hpos, if_neg hpos, bestOfMods_cons hlaw (fun _ _ => rfl) hrow
            (List.mem_cons_of_mem _ (h.played mod hmem))]
          exact ⟨fun hnew => hnew.1, fun hle => ⟨hle, hmax⟩⟩
      · rw [if_neg hid, if_neg hid]
        by_cases hpos : 0 < difference
        · -- The mod set of the best row is left without a row.
          refine iff_of_false (fun hlaw' => ?_) (by omega)
          have hbestMods : best.mods ≠ new.mods := by
            intro hsame
            have : best ∈ rows.filter fun row => row.mods = new.mods :=
              List.mem_filter.mpr ⟨hbestMem, by simpa using hsame⟩
            rw [hrow] at this
            exact hid (congrArg _ (List.mem_singleton.mp this))
          obtain ⟨old, -, hold, -⟩ := hlaw best (h.played best hbestMem)
          have honly : ∀ row ∈ rows, row.mods = best.mods → row = best := by
            intro row hrow' hsame
            have hrow'' : row ∈ rows.filter fun r => r.mods = best.mods :=
              List.mem_filter.mpr ⟨hrow', by simpa using hsame⟩
            have hbest' : best ∈ rows.filter fun r => r.mods = best.mods :=
              List.mem_filter.mpr ⟨hbestMem, by simp⟩
            rw [hold] at hrow'' hbest'
            rw [List.mem_singleton.mp hrow'', List.mem_singleton.mp hbest']
          have hgone : (rows.filter fun row => row.scoreId ≠ best.scoreId).filter
              (fun row => row.mods = best.mods) = [] := by
            rw [List.filter_eq_nil_iff]
            intro row hrow' hsame
            obtain ⟨hrow', hne⟩ := List.mem_filter.mp hrow'
            rw [honly row hrow' (of_decide_eq_true hsame)] at hne
            simp at hne
          obtain ⟨found, -, hfound, -⟩ :=
            hlaw' best (List.mem_cons_of_mem _ (h.played best hbestMem))
          rw [if_pos hpos] at hfound
          split at hfound
          · rw [(h.filter _).filter_replaceRow_of_ne (List.mem_filter.mpr ⟨hmem, by
              simpa using Ne.symm hid⟩) hmods hbestMods, hgone] at hfound
            simp at hfound
          · rw [hgone] at hfound
            simp at hfound
        · rw [if_neg hpos]
          refine iff_of_true ?_ (by omega)
          split
          · next hlt =>
            rw [bestOfMods_cons hlaw (fun m hm => h.filter_replaceRow_of_ne hmem hmods hm)
              (hreplaced h hmem hrow) List.mem_cons_self]
            exact ⟨Nat.le_refl _, fun other hother hsame =>
              (hmax other hother hsame).trans (Nat.le_of_lt hlt)⟩
          · next hle =>
            rw [bestOfMods_cons hlaw (fun _ _ => rfl) hrow
              (List.mem_cons_of_mem _ (h.played mod hmem))]
            exact ⟨Nat.le_of_not_lt hle, hmax⟩

end Place

end Rows

/-! ## Runs -/

/-- The scores that were placed for a key since its rows were last taken away, the newest first. -/
def placed (srv : Server) (k : MapKey) : List (Event × State) → List BestRow
  | [] => []
  | (e, t) :: past =>
    match e with
    | .finalize _ sid =>
      let placement := (endState State.empty past).placement srv sid
      ((placement.filter (·.1 = k)).map (·.2)).toList ++ placed srv k past
    | _ => if t.bestRows k = [] then [] else placed srv k past

/-- Every mod set that was played has one row, that of a score with the highest total. -/
def ModBestLaw (srv : Server) (h : List (Event × State)) (s : State) : Prop :=
  ∀ k, BestOfMods (placed srv k h) (s.bestRows k)

/-- A score of a mod set that has a row does not have a higher display score than the best row, if
that is another one.  If it is the same, the higher display score has the higher total. -/
def LeavesOthers (srv : Server) (past : List (Event × State)) (e : Event) : Prop :=
  match e with
  | .finalize _ sid =>
    let s := endState State.empty past
    ∀ x ∈ s.placement srv sid, ∀ sc ∈ s.scores.row sid, ∀ best ∈ srv.first (s.bestRows x.1),
      ∀ mod ∈ srv.first ((s.bestRows x.1).filter fun row => row.mods = x.2.mods),
        PlacesRight (srv.displayScore sc - s.displayOf srv.toSettings (some best)) x.2 best mod
  | _ => True

instance (srv : Server) (past : List (Event × State)) :
    (e : Event) → Decidable (LeavesOthers srv past e)
  | .finalize _ _ => by
    dsimp only [LeavesOthers]
    infer_instance
  | .register .. | .fetch .. | .createSolo .. | .createPlaylist .. | .submitSolo ..
  | .submitPlaylist .. | .retry .. | .applyRank .. | .unrank .. | .clearRank .. | .resolveEvent ..
  | .sync .. => inferInstanceAs (Decidable True)

/-- The rows are of placed scores, and placed scores are processed. -/
structure Sourced (srv : Server) (h : List (Event × State)) (s : State) : Prop where
  rows : ∀ k, RowsOf (placed srv k h) (s.bestRows k)
  processed : ∀ k, ∀ play ∈ placed srv k h, ∃ sc, s.scores.row play.scoreId = some sc ∧
    sc.processed = true

/-- A processed score stays processed. -/
theorem PlayStep.processed {srv : Deployment} {s t : State} {e : Event} (h : PlayStep srv s e t)
    {sid : ScoreId} {sc : Score} (hsc : s.scores.row sid = some sc)
    (hprocessed : sc.processed = true) :
    ∃ sc', t.scores.row sid = some sc' ∧ sc'.processed = true := by
  have hcongr : ∀ {u : State} {a : Score}, t.plays = u.plays → u.scores.row sid = some a →
      a.processed = true → ∃ sc', t.scores.row sid = some sc' ∧ sc'.processed = true := by
    intro u a hplays ha hprocessed
    obtain ⟨sc', hsc', hcore⟩ := State.plays_score hplays.symm ha
    have hsame : sc'.core.processed = a.core.processed := by rw [hcore]
    exact ⟨sc', hsc', hsame.trans hprocessed⟩
  cases h with
  | same hplays | register _ hplays | createSolo _ _ hplays | createPlaylist _ _ _ hplays =>
    exact hcongr hplays hsc hprocessed
  | submitSolo _ _ _ hplays | submitPlaylist _ _ _ _ _ _ hplays =>
    exact hcongr hplays (Table.row_insert_of_some hsc) hprocessed
  | @finalize _ sid' _ sc' _ _ _ _ _ _ _ _ _ hplays =>
    by_cases hid : sid = sid'
    · subst hid
      exact hcongr hplays (a := { sc with processed := true })
        (by simp [State.finalized, Table.row_modify, hsc]) rfl
    · exact hcongr hplays (by simp [State.finalized, Table.row_modify, hid]; exact hsc) hprocessed

section Step

variable {srv : Deployment} {past : List (Event × State)} {s t : State} {e : Event}

/-- A step that places nothing. -/
theorem placed_keeps (h : DerivedStep srv.toServer s t)
    (hother : ∀ calculated sid, e ≠ .finalize calculated sid) (k : MapKey) :
    (t.bestRows k = [] ∧ placed srv.toServer k ((e, t) :: past) = []) ∨
      t.bestRows k = s.bestRows k ∧
        placed srv.toServer k ((e, t) :: past) = placed srv.toServer k past := by
  have hplaced : placed srv.toServer k ((e, t) :: past) =
      if t.bestRows k = [] then [] else placed srv.toServer k past := by
    cases e with
    | finalize calculated sid => exact absurd rfl (hother calculated sid)
    | _ => rfl
  rw [hplaced]
  rcases h.bestRows k with hsame | hnone
  · by_cases hnil : t.bestRows k = []
    · exact .inl ⟨hnil, if_pos hnil⟩
    · exact .inr ⟨hsame, if_neg hnil⟩
  · exact .inl ⟨hnone, if_pos hnone⟩

/-- The scores of a key after a finalisation. -/
theorem placed_finalize (hend : endState State.empty past = s) (calculated : Option ℚ)
    (sid : ScoreId) (k : MapKey) :
    placed srv.toServer k ((.finalize calculated sid, t) :: past) =
      (((s.placement srv.toServer sid).filter (·.1 = k)).map (·.2)).toList ++
        placed srv.toServer k past := by
  rw [← hend]
  rfl

/-- What a finalisation does to the rows and the scores of a key. -/
theorem finalize_cases (hend : endState State.empty past = s) {calculated : Option ℚ}
    {sid : ScoreId} (h : Step srv s (.finalize calculated sid) t) (k : MapKey) :
    (t.bestRows k = s.bestRows k ∧ placed srv.toServer k ((.finalize calculated sid, t) :: past) =
        placed srv.toServer k past ∧ ∀ x ∈ s.placement srv.toServer sid, x.1 ≠ k) ∨
      ∃ sc new, s.scores.row sid = some sc ∧ s.placement srv.toServer sid = some (k, new) ∧
        new.scoreId = sid ∧
        t.bestRows k = s.rowsAfter srv.toServer k (srv.displayScore sc) new ∧
        placed srv.toServer k ((.finalize calculated sid, t) :: past) =
          new :: placed srv.toServer k past := by
  obtain ⟨u, h⟩ := h
  rw [placed_finalize hend]
  rcases bestRows_finalizeScore h with ⟨hnone, hrows⟩ | ⟨sc, new, hsc, hplace, hrows⟩
  · exact .inl ⟨by rw [hrows], by simp [hnone], by simp [hnone]⟩
  · have hid : new.scoreId = sid := by
      simp only [State.placement, hsc, Option.bind_eq_bind, Option.bind_some] at hplace
      obtain ⟨bm, -, hplace⟩ := Option.bind_eq_some_iff.mp hplace
      split at hplace
      · rw [← (Prod.mk.inj (Option.some.inj hplace)).2]
      · simp at hplace
    by_cases hk : sc.key = k
    · subst hk
      exact .inr ⟨sc, new, hsc, hplace, hid, by rw [hrows, Function.update_self],
        by simp [hplace, Option.filter]⟩
    · refine .inl ⟨by rw [hrows, Function.update_of_ne (Ne.symm hk)], ?_, ?_⟩
      · simp [hplace, Option.filter, hk]
      · rw [hplace]
        simpa using hk

/-- The score of a finalisation was not processed before, and is after. -/
theorem Sourced.fresh (hs : Sourced srv.toServer past s) {calculated : Option ℚ} {sid : ScoreId}
    (h : Step srv s (.finalize calculated sid) t) {k : MapKey} :
    (∀ row ∈ s.bestRows k, row.scoreId ≠ sid) ∧
      ∃ sc, t.scores.row sid = some sc ∧ sc.processed = true := by
  obtain ⟨u, h⟩ := h
  obtain ⟨sc, bm, st, st', hsc, hnew, -, -, -, -, hplays⟩ := plays_finalizeScore h
  refine ⟨fun row hrow hid => ?_, ?_⟩
  · obtain ⟨sc', hsc', hprocessed⟩ := hs.processed k row ((hs.rows k).played row hrow)
    obtain rfl := Option.some.inj (hsc.symm.trans (hid ▸ hsc'))
    simp [hnew] at hprocessed
  · obtain ⟨sc', hrow, hcore⟩ := State.plays_score hplays.symm
      (show (State.finalized s sid _ st').scores.row sid = some { sc with processed := true } by
        simp [State.finalized, Table.row_modify, hsc])
    have hsame : sc'.core.processed = true := by rw [hcore]; rfl
    exact ⟨sc', hrow, hsame⟩

theorem Sourced.step (hs : Sourced srv.toServer past s) (hend : endState State.empty past = s)
    (h : Step srv s e t) : Sourced srv.toServer ((e, t) :: past) t := by
  have hstay : ∀ k, ∀ play ∈ placed srv.toServer k past, ∃ sc,
      t.scores.row play.scoreId = some sc ∧ sc.processed = true := by
    intro k play hplay
    obtain ⟨sc, hsc, hprocessed⟩ := hs.processed k play hplay
    exact h.plays.processed hsc hprocessed
  by_cases hother : ∀ calculated sid, e ≠ .finalize calculated sid
  · have hkeeps : ∀ k, (t.bestRows k = [] ∧ placed srv.toServer k ((e, t) :: past) = []) ∨
        t.bestRows k = s.bestRows k ∧
          placed srv.toServer k ((e, t) :: past) = placed srv.toServer k past :=
      placed_keeps (h.derived hother) hother
    refine ⟨fun k => ?_, fun k play hplay => ?_⟩
    · rcases hkeeps k with ⟨hrows, hplaced⟩ | ⟨hrows, hplaced⟩
      · rw [hrows, hplaced]
        exact ⟨List.nodup_nil, by simp⟩
      · rw [hrows, hplaced]
        exact hs.rows k
    · rcases hkeeps k with ⟨-, hplaced⟩ | ⟨-, hplaced⟩
      · simp [hplaced] at hplay
      · exact hstay k play (hplaced ▸ hplay)
  · push Not at hother
    obtain ⟨calculated, sid, rfl⟩ := hother
    refine ⟨fun k => ?_, fun k play hplay => ?_⟩
    · rcases finalize_cases hend h k with ⟨hrows, hplaced, -⟩ | ⟨sc, new, -, -, rfl, hrows, hplaced⟩
      · rw [hrows, hplaced]
        exact hs.rows k
      · rw [hrows, hplaced]
        exact (hs.rows k).placeBestRow (hs.fresh h).1 _
    · rcases finalize_cases hend h k with ⟨-, hplaced, -⟩ | ⟨sc, new, -, -, rfl, -, hplaced⟩
      · exact hstay k play (hplaced ▸ hplay)
      · rw [hplaced] at hplay
        rcases List.mem_cons.mp hplay with rfl | hplay
        · exact (hs.fresh (k := k) h).2
        · exact hstay k play hplay

/-- A step keeps the law exactly if it places no score wrongly. -/
theorem modBestLaw_iff (hs : Sourced srv.toServer past s) (hend : endState State.empty past = s)
    (h : Step srv s e t) (hlaw : ModBestLaw srv.toServer past s) :
    ModBestLaw srv.toServer ((e, t) :: past) t ↔ LeavesOthers srv.toServer past e := by
  by_cases hother : ∀ calculated sid, e ≠ .finalize calculated sid
  · have hcond : LeavesOthers srv.toServer past e := by
      cases e with
      | finalize calculated sid => exact absurd rfl (hother calculated sid)
      | _ => trivial
    refine iff_of_true (fun k => ?_) hcond
    rcases placed_keeps (h.derived hother) hother k with
      ⟨hrows, hplaced⟩ | ⟨hrows, hplaced⟩
    · rw [hrows, hplaced]
      exact fun play hplay => by simp at hplay
    · rw [hrows, hplaced]
      exact hlaw k
  · push Not at hother
    obtain ⟨calculated, sid, rfl⟩ := hother
    simp only [LeavesOthers, hend]
    constructor
    · rintro hlaw' ⟨k, new⟩ hnew sc hsc
      rcases finalize_cases hend h k with ⟨-, -, hne⟩ | ⟨sc', new', hsc', hnew', -, hrows, hplaced⟩
      · exact absurd rfl (hne _ hnew)
      · obtain rfl := Option.some.inj (hsc'.symm.trans hsc)
        obtain rfl := (Prod.mk.inj (Option.some.inj (hnew'.symm.trans hnew))).2
        have hkey := hlaw' k
        rw [hrows, hplaced, State.rowsAfter, bestOfMods_placeBestRow (hs.rows k) (hlaw k)] at hkey
        intro best hbest mod hmod
        have := hkey best hbest mod hmod
        rwa [Option.mem_def.mp hbest] at this
    · intro hright k
      rcases finalize_cases hend h k with
        ⟨hrows, hplaced, -⟩ | ⟨sc, new, hsc, hnew, -, hrows, hplaced⟩
      · rw [hrows, hplaced]
        exact hlaw k
      · rw [hrows, hplaced, State.rowsAfter, bestOfMods_placeBestRow (hs.rows k) (hlaw k)]
        intro best hbest mod hmod
        rw [Option.mem_def.mp hbest]
        exact hright (k, new) hnew sc hsc best hbest mod hmod

end Step

/-- **The best score of every mod set.**  All along a run every mod set that was played has one
row, that of a score with the highest total, exactly if no score is placed that beats the best row
of another mod set while its own has a row, and the scores that meet the best row of their own mod
set have a higher display score only with a total as high, and a lower one only with one as low. -/
theorem mod_best_iff {srv : Deployment} {h : List (Event × State)} {s : State}
    (hrun : Runs srv (fun _ _ => True) h s) :
    Every (fun past e t => ModBestLaw srv.toServer ((e, t) :: past) t) h ↔
      Every (fun past e _ => LeavesOthers srv.toServer past e) h := by
  refine hrun.every_iff
    (I := fun past s => Sourced srv.toServer past s ∧ ModBestLaw srv.toServer past s) ?_ ?_
  · exact ⟨⟨fun _ => ⟨List.nodup_nil, by simp [State.empty]⟩, fun _ _ h => by simp [placed] at h⟩,
      fun _ _ h => by simp [placed] at h⟩
  · rintro past s e t ⟨hs, hlaw⟩ hend hstep
    have hiff := modBestLaw_iff hs hend hstep hlaw
    exact ⟨hiff, fun hright => ⟨hs.step hend hstep, hiff.mpr hright⟩⟩

/-- The best row of one mod set gives way to the next score of the same mod set. -/
theorem mod_best_iff_improved :
    Every (fun past e t => ModBestLaw plainServer.toServer ((e, t) :: past) t)
        (historyOf (State.after plainServer) State.empty
          (soloPlays [playOf 2000 [], playOf 1000 [], playOf 500 ["HD"]])) ∧
      (endState State.empty (historyOf (State.after plainServer) State.empty
        (soloPlays [playOf 2000 [], playOf 1000 [], playOf 500 ["HD"]]))).bestRows ⟨7, 1, .osu⟩ =
        [⟨1, 500, ["HD"], .x⟩, ⟨3, 2000, [], .x⟩] :=
  ⟨(mod_best_iff (Runs.of_accepted (soloPlays [playOf 2000 [], playOf 1000 [], playOf 500 ["HD"]])
    (by decide +kernel))).mpr (by decide +kernel), by decide +kernel⟩

/-- A score without mods beats the best row, which has a mod, and takes it away. -/
theorem mod_best_lost : ¬ ∀ (srv : Deployment) (h : List (Event × State)) (s : State),
    Runs srv (fun _ _ => True) h s → ModBestLaw srv.toServer h s := by
  intro hlaw
  have hbest := hlaw plainServer _ _ (Runs.of_accepted
    (soloPlays [playOf 2000 [], playOf 500 [], playOf 1000 ["HD"]]) (by decide +kernel))
    ⟨7, 1, .osu⟩ ⟨1, 1000, ["HD"], .x⟩ (by decide +kernel)
  obtain ⟨best, -, hrow, -⟩ := hbest
  have hgone : (endState State.empty (historyOf (State.after plainServer) State.empty
      (soloPlays [playOf 2000 [], playOf 500 [], playOf 1000 ["HD"]]))).bestRows ⟨7, 1, .osu⟩ =
        [⟨3, 2000, [], .x⟩] := by
    decide +kernel
  rw [hgone] at hrow
  simp at hrow

end Soms.Scores
