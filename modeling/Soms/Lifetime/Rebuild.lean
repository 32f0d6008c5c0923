import Soms.Lifetime.Counters

/-!
# What is rebuilt

A rebuild starts from zero and adds every processed score of the player once, with the hit length
of its map.
-/

namespace Soms.Lifetime

open Soms.Scores Txn

variable {srv : Server} {settings : Settings} {es : List Entry} {s t : State} {uid : UserId}
  {sid : ScoreId} {sc : Score}

/-! ## The statistics -/

/-- What some scores add to a counter when they are processed again. -/
def readded (settings : Settings) (s : State) (l : List (ScoreId × Score)) (um : UserMode)
    (x : Tally) : Int :=
  ((l.filter fun y => y.2.key.userMode = um).map fun y =>
    y.2.tally settings (hitLength s y.2.beatmapId) x).sum

@[simp] theorem readded_nil {um : UserMode} {x : Tally} : readded settings s [] um x = 0 := rfl

theorem readded_cons {y : ScoreId × Score} {l : List (ScoreId × Score)} {um : UserMode}
    {x : Tally} : readded settings s (y :: l) um x =
      (if y.2.key.userMode = um then y.2.tally settings (hitLength s y.2.beatmapId) x else 0) +
        readded settings s l um x := by
  unfold readded
  by_cases hum : y.2.key.userMode = um <;> simp [hum]

/-- The scores and the maps are left alone, and the counters of every player grow. -/
structure Grows (s t : State) (added : UserMode → Tally → Int) : Prop where
  scores : t.scores = s.scores
  beatmaps : t.beatmaps = s.beatmaps
  stats : ∀ um, (t.stats um).map UserStatistics.tally =
    (s.stats um).map fun st x => st.tally x + added um x

/-- What the counters are rebuilt from and where they are. -/
def sources (s : State) : Table Score × Catalog Beatmap × (UserMode → Option UserStatistics) :=
  (s.scores, s.beatmaps, s.stats)

theorem Grows.of_eq (h : sources t = sources s) : Grows s t fun _ _ => 0 := by
  refine ⟨congrArg (·.1) h, congrArg (·.2.1) h, fun um => ?_⟩
  rw [show t.stats = s.stats from congrArg (·.2.2) h]
  simp only [Int.add_zero]

theorem Grows.trans {u : State} {f g : UserMode → Tally → Int} (h : Grows s t f)
    (h' : Grows t u g) : Grows s u fun um x => f um x + g um x := by
  refine ⟨h'.scores.trans h.scores, h'.beatmaps.trans h.beatmaps, fun um => ?_⟩
  have hmap := h.stats um
  rw [h'.stats um]
  cases hs : s.stats um with
  | none =>
    rw [hs, Option.map_none, Option.map_eq_none_iff] at hmap
    rw [hmap]
    rfl
  | some st =>
    rw [hs] at hmap
    obtain ⟨st', hst', htally⟩ := Option.map_eq_some_iff.mp hmap
    rw [hst', Option.map_some, Option.map_some, htally]
    congr 1
    funext x
    exact Int.add_assoc ..

theorem grows_reprocess {y : ScoreId × Score} {u : Unit} (h : reprocess srv y s = (.ok u, t)) :
    Grows s t fun um x =>
      if y.2.key.userMode = um then
        y.2.tally srv.toSettings (hitLength s y.2.beatmapId) x
      else 0 := by
  simp only [reprocess, bind_ok, require_ok, write_ok] at h
  obtain ⟨bm, s₁, ⟨hbm, rfl⟩, st, s₂, ⟨hst, rfl⟩, rfl⟩ := h
  obtain ⟨st', hstats, htally⟩ := processStatistics_stats srv y.1 y.2 bm.hitLength
    (s.effectivePolicy y.2.beatmapId bm) st s
  refine ⟨rfl, rfl, fun um => ?_⟩
  rw [hstats]
  have hlength : hitLength s y.2.beatmapId = bm.hitLength := by rw [hitLength, hbm]; rfl
  by_cases hum : y.2.key.userMode = um
  · subst hum
    rw [Function.update_self, hst, Option.map_some, Option.map_some]
    congr 1
    funext x
    rw [htally, if_pos rfl, hlength]
  · rw [Function.update_of_ne (Ne.symm hum)]
    simp only [if_neg hum, Int.add_zero]

theorem grows_forM {l : List (ScoreId × Score)} {u : Unit}
    (h : l.forM (reprocess srv) s = (.ok u, t)) :
    Grows s t (readded srv.toSettings s l) := by
  induction l generalizing s with
  | nil =>
    obtain ⟨-, rfl⟩ := pure_ok.mp h
    exact .of_eq rfl
  | cons y rest ih =>
    obtain ⟨_, v, hone, hrest⟩ := bind_ok.mp h
    have hgrows := grows_reprocess hone
    have hboth := hgrows.trans (ih hrest)
    have hsame : ∀ um x, readded srv.toSettings v rest um x =
        readded srv.toSettings s rest um x := fun um x => by
      simp only [readded, hitLength, hgrows.beatmaps]
    have hadded : (fun um x => (if y.2.key.userMode = um then
          y.2.tally srv.toSettings (hitLength s y.2.beatmapId) x else 0) +
        readded srv.toSettings v rest um x) = readded srv.toSettings s (y :: rest) := by
      funext um x
      rw [readded_cons, hsame]
    exact hadded ▸ hboth

theorem grows_rebuildPpBest (l : List (ScoreId × Score)) :
    Grows s (rebuildPpBest srv l s) fun _ _ => 0 := by
  refine .of_eq (foldl_leaves sources (fun s x => ?_) l s)
  split
  · split
    · unfold placePpBest
      split <;> rfl
    · rfl
  · rfl

theorem grows_rebuildPlaylists (uid : UserId) (l : List (ScoreId × Score)) :
    Grows s (rebuildPlaylists uid l s) fun _ _ => 0 := by
  refine .of_eq ?_
  unfold rebuildPlaylists
  refine (foldl_leaves sources (fun _ _ => ?_) _ _).trans (foldl_leaves sources (fun _ _ => ?_) _ _)
  · rfl
  · rfl

theorem tally_resetStatistics (st : UserStatistics) (x : Tally) :
    (resetStatistics st).tally x = 0 := by
  cases x <;> rfl

theorem mem_gameplayScores {y : ScoreId × Score} : y ∈ gameplayScores uid s ↔
    s.scores.row y.1 = some y.2 ∧ y.2.userId = uid ∧ y.2.processed = true := by
  obtain ⟨i, sc⟩ := y
  simp only [gameplayScores, (List.perm_insertionSort _ _).mem_iff, List.mem_filter,
    Table.mem_toList, Bool.and_eq_true, beq_iff_eq]

theorem nodup_gameplayScores : ((gameplayScores uid s).map Prod.fst).Nodup := by
  have hperm := (List.perm_insertionSort
    (fun x y : ScoreId × Score =>
      x.2.endedAt < y.2.endedAt ∨ x.2.endedAt = y.2.endedAt ∧ x.1 ≤ y.1)
    (s.scores.toList.filter fun x => x.2.userId == uid && x.2.processed)).map Prod.fst
  refine hperm.nodup_iff.mpr ?_
  exact s.scores.nodup_toList.sublist (List.filter_sublist.map Prod.fst)

/-- The counters of the player are the sums over the processed scores; the others stay. -/
theorem rebuild_ok {u : Unit} (h : rebuildUserGameplayAggregates srv uid s = (.ok u, t)) :
    t.scores = s.scores ∧ ∀ um, (t.stats um).map UserStatistics.tally =
      if um.1 = uid then
        (s.stats um).map fun _ => readded srv.toSettings s (gameplayScores uid s) um
      else (s.stats um).map UserStatistics.tally := by
  simp only [rebuildUserGameplayAggregates, bind_ok, read_ok, write_ok] at h
  obtain ⟨_, s₁, hclear, l, s₂, ⟨hl, rfl⟩, _, s₃, rfl, _, s₄, hloop, rfl⟩ := h
  have hgrows := ((grows_rebuildPpBest (s := s₁) l).trans
    (grows_forM hloop)).trans (grows_rebuildPlaylists uid l)
  have hscores : s₁.scores = s.scores := by rw [← hclear]; rfl
  have hbeatmaps : s₁.beatmaps = s.beatmaps := by rw [← hclear]; rfl
  have hstats : s₁.stats = (clearAggregates uid s).stats := by rw [hclear]
  have hsame : l = gameplayScores uid s := by rw [← hl, gameplayScores, hscores, gameplayScores]
  have hadded : ∀ um x, readded srv.toSettings (rebuildPpBest srv l s₁) l um x =
      readded srv.toSettings s (gameplayScores uid s) um x := fun um x => by
    rw [hsame]
    simp only [readded, hitLength]
    rw [(grows_rebuildPpBest _).beatmaps, hbeatmaps]
  refine ⟨hgrows.scores.trans hscores, fun um => ?_⟩
  rw [hgrows.stats um, hstats]
  simp only [Int.zero_add, Int.add_zero, hadded]
  by_cases hum : um.1 = uid
  · simp only [clearAggregates, if_pos hum, Option.map_map]
    congr 1
    funext st x
    simp only [Function.comp_apply, tally_resetStatistics, Int.zero_add]
  · have hnone : ∀ x, readded srv.toSettings s (gameplayScores uid s) um x = 0 := fun x => by
      have hempty : (gameplayScores uid s).filter (fun y => y.2.key.userMode = um) = [] := by
        refine List.filter_eq_nil_iff.mpr fun y hy hkey => hum ?_
        rw [← (mem_gameplayScores.mp hy).2.1, ← of_decide_eq_true hkey]
        rfl
      rw [readded, hempty]
      rfl
    simp only [clearAggregates, if_neg hum, hnone, Int.add_zero]

/-! ## The rows that are left -/

/-- Scores are deleted, and with some of them their entries. -/
theorem Rows.filter (h : Rows es s.scores) {p : Entry → Bool} {scores : Table Score}
    (hnext : scores.next = s.scores.next)
    (hold : ∀ sid sc, scores.row sid = some sc → s.scores.row sid = some sc)
    (hp : ∀ e ∈ es, p e = false → scores.row e.scoreId = none) : Rows (es.filter p) scores where
  once := h.once.sublist (List.filter_sublist.map _)
  fresh e he := hnext ▸ h.fresh e (List.mem_filter.mp he).1
  rows sid sc hsc := by
    rw [h.rows sid sc (hold sid sc hsc)]
    constructor
    · intro hmem
      obtain ⟨e, he, rfl⟩ := List.mem_map.mp hmem
      refine List.mem_map_of_mem (List.mem_filter.mpr ⟨he, ?_⟩)
      by_contra hnot
      have hnone := hp e he (Bool.not_eq_true _ ▸ hnot)
      rw [hsc] at hnone
      exact absurd hnone (by simp)
    · intro hmem
      obtain ⟨e, he, rfl⟩ := List.mem_map.mp hmem
      exact List.mem_map_of_mem (List.mem_filter.mp he).1
  same e he sc hsc := h.same e (List.mem_filter.mp he).1 sc (hold _ _ hsc)

/-- **The cleanup.** -/
theorem Kept.cleanup {h : List (Event × State)} (hkept : Kept settings h s) {now : Time}
    {retention : Int} {failed : List ScoreId}
    (hprocessed : ∀ sid ∈ deletable now retention failed s,
      ∀ sc ∈ s.scores.row sid, sc.processed = true)
    (ht : t = cleanupExpiredFailedSoloScores now retention failed s) :
    Kept settings ((.cleanup now retention failed, t) :: h) t := by
  have hrow : ∀ sid, t.scores.row sid =
      if sid ∈ deletable now retention failed s then none else s.scores.row sid := by
    rw [ht]
    exact fun sid => Table.row_foldl_delete _ _ sid
  have hnext : t.scores.next = s.scores.next := by
    rw [ht]
    exact Table.next_foldl_delete _ _
  have hstats : t.stats = s.stats := by rw [ht]; rfl
  refine hkept.step ?_ ?_ fun sid hsid => .inr ?_
  · have hrows := hkept.rows.filter (p := fun _ => true) hnext (fun sid sc hsc => ?_)
      fun _ _ hfalse => absurd hfalse (by simp)
    · rw [List.filter_true] at hrows
      exact hrows
    · rw [hrow] at hsc
      split at hsc
      · exact absurd hsc (by simp)
      · exact hsc
  · rw [hstats]
    exact hkept.sums
  · rcases hsid with ⟨sc, hsc, hp⟩ | hmem
    · refine .inl ⟨sc, ?_, hp⟩
      rw [hrow, if_neg, hsc]
      intro hmem
      exact absurd (hp.symm.trans (hprocessed sid hmem sc hsc)) Bool.false_ne_true
    · exact .inr hmem

/-- The play time is all of a score's counters that depends on the length. -/
theorem tally_of_samePlaytime {length length' : Nat} (h : SamePlaytime sc length length')
    (x : Tally) : sc.tally settings length x = sc.tally settings length' x := by
  obtain ⟨hvalid, htime⟩ := h
  cases x with
  | playCount => simp only [Score.tally, hvalid]
  | playTime =>
    simp only [Score.tally]
    rw [← hvalid]
    split
    · next hcounts => exact htime hcounts
    · rfl
  | _ => rfl

/-- What the entries of a player add is what the stored scores add again. -/
theorem readded_eq_total {um : UserMode} (h : Rows es s.scores)
    (hstored : ∀ e ∈ es, e.score.userId = um.1 → (s.scores.row e.scoreId).isSome = true ∧
      SamePlaytime e.score (hitLength s e.score.beatmapId) e.length) (x : Tally) :
    readded settings s (gameplayScores um.1 s) um x = total settings es um x := by
  have hcore : ∀ {sc sc' : Score}, sc.core = sc'.core → sc.key = sc'.key ∧
      sc.beatmapId = sc'.beatmapId ∧ sc.processed = sc'.processed ∧
      ∀ length, sc.tally settings length = sc'.tally settings length := by
    intro sc sc' hsame
    have hkey : sc.core.key = sc'.core.key := congrArg Score.key hsame
    have hmap : sc.core.beatmapId = sc'.core.beatmapId := congrArg Score.beatmapId hsame
    have hp : sc.core.processed = sc'.core.processed := congrArg Score.processed hsame
    exact ⟨hkey, hmap, hp, fun length => by rw [← Score.tally_core, hsame, Score.tally_core]⟩
  have hvalue : ∀ e ∈ es, e.score.key.userMode = um → ∀ sc, s.scores.row e.scoreId = some sc →
      sc.key.userMode = um ∧
        sc.tally settings (hitLength s sc.beatmapId) x = e.score.tally settings e.length x := by
    intro e he hum sc hsc
    obtain ⟨hkey, hmap, -, htally⟩ := hcore (h.same e he sc hsc)
    have huser : e.score.userId = um.1 := congrArg Prod.fst hum
    refine ⟨hkey ▸ hum, ?_⟩
    rw [htally, hmap]
    exact tally_of_samePlaytime (hstored e he huser).2 x
  refine @Table.sum_eq_of_keys _ _ _ _ _ _ _ Prod.fst Entry.scoreId _ _ ?_ ?_ ?_ ?_
  · exact nodup_gameplayScores.sublist (List.filter_sublist.map _)
  · exact h.once.sublist (List.filter_sublist.map _)
  · intro y hy
    obtain ⟨hmem, hum⟩ := List.mem_filter.mp hy
    obtain ⟨hrow, -, hp⟩ := mem_gameplayScores.mp hmem
    obtain ⟨e, he, hid⟩ := List.mem_map.mp ((h.rows y.1 y.2 hrow).mp hp)
    obtain ⟨hkey, -, -, -⟩ := hcore (h.same e he y.2 (hid ▸ hrow))
    have heum : e.score.key.userMode = um := hkey ▸ of_decide_eq_true hum
    refine ⟨e, List.mem_filter.mpr ⟨he, decide_eq_true heum⟩, hid, ?_⟩
    exact (hvalue e he heum y.2 (hid ▸ hrow)).2.symm
  · intro e he
    obtain ⟨hmem, hum⟩ := List.mem_filter.mp he
    have hum := of_decide_eq_true hum
    have huser : e.score.userId = um.1 := congrArg Prod.fst hum
    obtain ⟨sc, hsc⟩ := Option.isSome_iff_exists.mp (hstored e hmem huser).1
    obtain ⟨hkey, htally⟩ := hvalue e hmem hum sc hsc
    have hp : sc.processed = true := (h.rows _ sc hsc).mpr (List.mem_map_of_mem hmem)
    have hmine : sc.userId = um.1 := congrArg Prod.fst hkey
    exact ⟨(e.scoreId, sc), List.mem_filter.mpr
      ⟨mem_gameplayScores.mpr ⟨hsc, hmine, hp⟩, decide_eq_true hkey⟩, rfl, htally⟩

theorem total_filter {um : UserMode} {p : Entry → Bool} {x : Tally}
    (hp : ∀ e ∈ es, p e = false → e.score.key.userMode ≠ um) :
    total settings (es.filter p) um x = total settings es um x := by
  rw [total, total, List.filter_filter]
  congr 2
  refine List.filter_congr fun e he => ?_
  cases hpe : p e with
  | true => rw [Bool.and_true]
  | false => simp [hp e he hpe]

/-- **The deletion of a score.** -/
theorem Kept.deleteScore {h : List (Event × State)} {srv : Deployment}
    (hkept : Kept srv.toSettings h s) {u : Unit}
    (hstored : ∀ c ∈ finalised h, c.score.userId = uid → c.scoreId ≠ sid →
      (s.scores.row c.scoreId).isSome = true ∧
        SamePlaytime c.score (hitLength s c.score.beatmapId) c.length)
    (hserve : deleteUserScore srv.toServer uid sid s = (.ok u, t)) :
    Kept srv.toSettings ((.deleteScore uid sid, t) :: h) t := by
  simp only [deleteUserScore, bind_ok, require_ok, write_ok, Option.filter_eq_some_iff,
    beq_iff_eq] at hserve
  obtain ⟨sc, s₁, ⟨⟨hsc, howner⟩, rfl⟩, _, s₂, rfl, hrebuild⟩ := hserve
  obtain ⟨hscores, hstats⟩ := rebuild_ok hrebuild
  have hrow : ∀ j, (removeScore sid s).scores.row j = if j = sid then none else s.scores.row j :=
    fun j => rfl
  have hrows : Rows (finalised ((.deleteScore uid sid, t) :: h)) (removeScore sid s).scores := by
    refine hkept.rows.filter rfl (fun j c hc => ?_) fun e _ hid => ?_
    · rw [hrow] at hc
      split at hc
      · exact absurd hc (by simp)
      · exact hc
    · rw [hrow, if_pos (by simpa using hid)]
  refine hkept.step (hscores ▸ hrows) ⟨fun um st hst x => ?_, fun e he => ?_⟩ fun j hj => ?_
  · have hmap := hstats um
    rw [hst] at hmap
    by_cases hum : um.1 = uid
    · rw [if_pos hum] at hmap
      obtain ⟨-, -, htally⟩ := Option.map_eq_some_iff.mp hmap.symm
      rw [← htally, ← hum]
      refine readded_eq_total hrows (fun e he huser => ?_) x
      obtain ⟨hmem, hid⟩ := List.mem_filter.mp he
      have hid : e.scoreId ≠ sid := by simpa using hid
      rw [hrow, if_neg hid]
      exact hstored e hmem (huser.trans hum) hid
    · rw [if_neg hum] at hmap
      obtain ⟨st', hst', htally⟩ := Option.map_eq_some_iff.mp hmap.symm
      rw [← htally, hkept.sums.counters um st' hst']
      refine (total_filter fun e he hid hkey => hum ?_).symm
      have hid : e.scoreId = sid := by simpa using hid
      have hcore := hkept.rows.same e he sc (hid ▸ hsc)
      have huser : sc.core.userId = e.score.core.userId := congrArg Score.userId hcore
      have huser : sc.userId = e.score.userId := huser
      rw [← congrArg Prod.fst hkey, ← howner]
      exact huser.symm
  · have hsome := congrArg Option.isSome (hstats e.score.key.userMode)
    have hold := hkept.sums.accounts e (List.mem_filter.mp he).1
    rw [Option.isSome_map] at hsome
    rw [hsome]
    split <;> exact (Option.isSome_map ..).trans hold
  · by_cases hid : j = sid
    · exact .inl ⟨uid, by rw [hid]⟩
    · refine .inr ?_
      rcases hj with ⟨c, hc, hp⟩ | hmem
      · refine .inl ⟨c, ?_, hp⟩
        rw [hscores, hrow, if_neg hid]
        exact hc
      · obtain ⟨e, he, rfl⟩ := List.mem_map.mp hmem
        exact .inr (List.mem_map_of_mem (List.mem_filter.mpr ⟨he, by simpa using hid⟩))

/-! ## Runs -/

/-- **Lifetime counters.**  In every run whose deletions find what they rebuild and whose cleanups
find processed scores, the counters are the sums over the scores ever finalised and not deleted by
an administrator, and no submitted score gets lost. -/
theorem lifetime_counters_kept {srv : Deployment} {h : List (Event × State)}
    (hrun : Trace (Step srv) (fun _ _ => True) State.empty h s)
    (hsurvives : Every (fun past e _ => Survives past e) h) :
    LifetimeKept srv.toSettings h s := by
  have hkept : Kept srv.toSettings h s := by
    refine hrun.of_every (I := Kept srv.toSettings) ?_ ?_ hsurvives
    · exact ⟨⟨.nil, by simp [finalised], by simp [State.empty], by simp [finalised]⟩,
        ⟨by simp [State.empty], by simp [finalised]⟩, by simp⟩
    · rintro h s e t hkept hend hcond ⟨u, hserve⟩
      unfold Survives at hcond
      rw [hend] at hcond
      cases e with
      | live e =>
        cases e with
        | finalize calculated sid => exact hkept.finalize ⟨u, hserve⟩
        | _ => exact hkept.live ⟨u, hserve⟩ fun _ _ => by simp
      | cleanup now retention failed => exact hkept.cleanup hcond (write_ok.mp hserve).symm
      | deleteScore uid sid => exact hkept.deleteScore hcond hserve
  exact ⟨hkept.sums.counters, hkept.rows.once, hkept.accounted⟩

/-- The history of some events that are all accepted. -/
theorem trace_served {srv : Deployment} {es : List Event}
    (hserved : Every (fun past e _ => (serve srv e (endState State.empty past)).1.isOk = true)
      (historyOf (after srv) State.empty es)) :
    Trace (Step srv) (fun _ _ => True) State.empty (historyOf (after srv) State.empty es)
      (endState State.empty (historyOf (after srv) State.empty es)) := by
  induction es with
  | nil => exact .refl
  | cons e past ih => exact (ih hserved.1).tail trivial ⟨(), ok_of_isOk hserved.2⟩

/-- A player passes the map and then fails it, and both plays are finalised. -/
def bothFinalised : List Event :=
  [.live (.finalize none 2), .live (.submitSolo 20 7 2 { fullCombo with passed := false }),
    .live (.createSolo 10 7 1 4 ""), .live (.finalize none 1), .live (.submitSolo 9 7 1 fullCombo),
    .live (.createSolo 0 7 1 4 ""), .live (.register 7 .osu), .live mapFetched]

/-- A day later than the plays. -/
def dayLater : Time := 24 * 60 * 60 * 1000000 + 20

/-- The cleanup of the failed play. -/
def cleanedUp : Event := .cleanup dayLater (24 * 60 * 60 * 1000000) []

theorem lifetime_counters_kept_cleaned : LifetimeKept plainServer.toSettings
    (historyOf (after plainServer) State.empty (cleanedUp :: .deleteScore 7 1 :: bothFinalised))
    (endState State.empty (historyOf (after plainServer) State.empty
      (cleanedUp :: .deleteScore 7 1 :: bothFinalised))) := by
  refine lifetime_counters_kept (trace_served ?_) ?_
  · refine ⟨⟨⟨⟨⟨⟨⟨⟨⟨⟨trivial, ?_⟩, ?_⟩, ?_⟩, ?_⟩, ?_⟩, ?_⟩, ?_⟩, ?_⟩, ?_⟩, ?_⟩ <;> decide +kernel
  · refine ⟨⟨⟨⟨⟨⟨⟨⟨⟨⟨trivial, trivial⟩, trivial⟩, trivial⟩, trivial⟩, trivial⟩, trivial⟩, trivial⟩,
      trivial⟩, ?_⟩, ?_⟩
    · show ∀ c ∈ _, _
      decide +kernel
    · show ∀ sid ∈ _, _
      decide +kernel

/-- The failed play is cleaned up, and a later deletion rebuilds the counters without it. -/
theorem cleanup_then_rebuild_loses : ∃ srv h s, Trace (Step srv) (fun _ _ => True) State.empty h s ∧
    ¬ LifetimeKept srv.toSettings h s := by
  refine ⟨plainServer, _, _,
    @trace_served plainServer (.deleteScore 7 1 :: cleanedUp :: bothFinalised) ?_, fun hkept => ?_⟩
  · refine ⟨⟨⟨⟨⟨⟨⟨⟨⟨⟨trivial, ?_⟩, ?_⟩, ?_⟩, ?_⟩, ?_⟩, ?_⟩, ?_⟩, ?_⟩, ?_⟩, ?_⟩ <;> decide +kernel
  · obtain ⟨st, hst⟩ : ∃ st, (endState State.empty (historyOf (after plainServer) State.empty
        (.deleteScore 7 1 :: cleanedUp :: bothFinalised))).stats (7, .osu) = some st :=
      Option.isSome_iff_exists.mp (by decide +kernel)
    have hzero : (some st).map (·.tally .totalScore) = some 0 := by
      rw [← hst]
      decide +kernel
    have hcounter := hkept.counters _ st hst .totalScore
    rw [show st.tally .totalScore = 0 from Option.some.inj hzero] at hcounter
    revert hcounter
    decide +kernel

end Soms.Lifetime
