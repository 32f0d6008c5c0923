import Soms.Lifetime.Deletion
import Soms.Scores.Once

/-!
# Counters for good

The counters of a player are the sums over the scores that were ever finalised, without those
that an administrator deleted.  A run keeps to this while the cleanup deletes processed scores
only and a rebuild finds every score it counts, with the play time it had.
-/

namespace Soms.Lifetime

open Soms.Scores Txn

/-- A score when it was finalised, with the length its map had. -/
structure Entry where
  scoreId : ScoreId
  score : Score
  length : Nat

/-- The scores that were finalised and not deleted by an administrator since. -/
def finalised : List (Event × State) → List Entry
  | [] => []
  | (.live (.finalize _ sid), t) :: h =>
    match t.scores.row sid with
    | some sc => ⟨sid, sc, (t.beatmaps.row sc.beatmapId).elim 0 (·.totalLength)⟩ :: finalised h
    | none => finalised h
  | (.deleteScore _ sid, _) :: h => (finalised h).filter fun e => e.scoreId != sid
  | _ :: h => finalised h

/-- What some scores add to a counter of a player in a mode. -/
def total (settings : Settings) (es : List Entry) (um : UserMode) (x : Tally) : Int :=
  ((es.filter fun e => e.score.key.userMode = um).map fun e =>
    e.score.tally settings e.length x).sum

/-- The score waits for its finalisation, or it was finalised. -/
def Accounted (es : List Entry) (scores : Table Score) (sid : ScoreId) : Prop :=
  (∃ sc, scores.row sid = some sc ∧ sc.processed = false) ∨ sid ∈ es.map Entry.scoreId

/-- The counters are those of the scores ever finalised and not deleted by an administrator, and
every score that was ever submitted is counted once, still waits or was deleted. -/
structure LifetimeKept (settings : Settings) (h : List (Event × State)) (s : State) : Prop where
  counters : ∀ um st, s.stats um = some st → ∀ x, st.tally x = total settings (finalised h) um x
  once : ((finalised h).map Entry.scoreId).Nodup
  accounted : ∀ x ∈ h, ∀ sid sc, x.2.scores.row sid = some sc →
    (∃ uid t, (.deleteScore uid sid, t) ∈ h) ∨ Accounted (finalised h) s.scores sid

/-- The play counts with both lengths or with neither, and for the same time. -/
def SamePlaytime (sc : Score) (length length' : Nat) : Prop :=
  (calculatePlaytime sc length).2 = (calculatePlaytime sc length').2 ∧
    ((calculatePlaytime sc length).2 = true →
      (calculatePlaytime sc length).1 = (calculatePlaytime sc length').1)

instance (sc : Score) (length length' : Nat) : Decidable (SamePlaytime sc length length') :=
  inferInstanceAs (Decidable (_ ∧ _))

/-- The hit length of a map, zero without one. -/
def hitLength (s : State) (b : BeatmapId) : Nat := (s.beatmaps.row b).elim 0 (·.hitLength)

/-- The cleanup finds processed scores.  A deletion finds the other scores of the player that were
finalised, and the hit lengths of their maps give the play times that were counted. -/
def Survives (past : List (Event × State)) (e : Event) : Prop :=
  let s := endState State.empty past
  match e with
  | .live _ => True
  | .cleanup now retention failed => ∀ sid ∈ deletable now retention failed s,
      ∀ sc ∈ s.scores.row sid, sc.processed = true
  | .deleteScore uid sid => ∀ c ∈ finalised past, c.score.userId = uid → c.scoreId ≠ sid →
      (s.scores.row c.scoreId).isSome = true ∧
        SamePlaytime c.score (hitLength s c.score.beatmapId) c.length

/-! ## The entries and the rows -/

/-- The entries are the processed scores, as far as they are stored. -/
structure Rows (es : List Entry) (scores : Table Score) : Prop where
  once : (es.map Entry.scoreId).Nodup
  fresh : ∀ e ∈ es, e.scoreId < scores.next
  rows : ∀ sid sc, scores.row sid = some sc → (sc.processed = true ↔ sid ∈ es.map Entry.scoreId)
  same : ∀ e ∈ es, ∀ sc, scores.row e.scoreId = some sc → sc.core = e.score.core

/-- The counters are sums over entries, and who has an entry has counters. -/
structure Sums (settings : Settings) (es : List Entry)
    (stats : UserMode → Option UserStatistics) : Prop where
  counters : ∀ um st, stats um = some st → ∀ x, st.tally x = total settings es um x
  accounts : ∀ e ∈ es, (stats e.score.key.userMode).isSome = true

variable {settings : Settings} {es : List Entry} {s t : State} {sid : ScoreId} {sc : Score}

theorem Rows.accounted (h : Rows es s.scores) (hsc : s.scores.row sid = some sc) :
    Accounted es s.scores sid := by
  cases hp : sc.processed with
  | true => exact .inr ((h.rows sid sc hsc).mp hp)
  | false => exact .inl ⟨sc, hsc, hp⟩

theorem Rows.congr (h : Rows es s.scores) (hplays : t.plays = s.plays) : Rows es t.scores where
  once := h.once
  fresh := by
    rw [State.plays_next hplays]
    exact h.fresh
  rows sid sc hsc := by
    obtain ⟨sc', hsc', hcore⟩ := State.plays_score hplays hsc
    have hp : sc'.core.processed = sc.core.processed := congrArg Score.processed hcore
    rw [← h.rows sid sc' hsc']
    exact ⟨fun hproc => hp.trans hproc, fun hproc => hp.symm.trans hproc⟩
  same e he sc hsc := by
    obtain ⟨sc', hsc', hcore⟩ := State.plays_score hplays hsc
    exact hcore.symm.trans (h.same e he sc' hsc')

theorem Sums.congr (h : Sums settings es s.stats) (hplays : t.plays = s.plays) :
    Sums settings es t.stats where
  counters um st hst x := by
    have hstats := State.plays_stats hplays um
    rw [hst] at hstats
    obtain ⟨st', hst', htally⟩ := Option.map_eq_some_iff.mp hstats.symm
    rw [← htally]
    exact h.counters um st' hst' x
  accounts e he := by
    have hsome := congrArg Option.isSome (State.plays_stats hplays e.score.key.userMode)
    simp only [Option.isSome_map] at hsome
    rw [hsome]
    exact h.accounts e he

theorem accounted_congr (hplays : t.plays = s.plays) (h : Accounted es s.scores sid) :
    Accounted es t.scores sid := by
  rcases h with ⟨sc, hsc, hp⟩ | h
  · obtain ⟨sc', hsc', hcore⟩ := State.plays_score hplays.symm hsc
    have hp' : sc'.core.processed = sc.core.processed := congrArg Score.processed hcore
    exact .inl ⟨sc', hsc', hp'.trans hp⟩
  · exact .inr h

/-! ## Live transactions -/

theorem Rows.insert (h : Rows es s.scores) (hnew : sc.processed = false) :
    Rows es (s.scores.insert sc) where
  once := h.once
  fresh e he := Nat.lt_succ_of_lt (h.fresh e he)
  rows sid sc' hsc' := by
    rw [Table.row_insert] at hsc'
    split at hsc'
    · next hid =>
      obtain rfl := Option.some.inj hsc'
      refine ⟨fun hp => absurd (hnew.symm.trans hp) Bool.false_ne_true, fun hmem => ?_⟩
      obtain ⟨e, he, heid⟩ := List.mem_map.mp hmem
      exact absurd (heid.trans hid) (Nat.ne_of_lt (h.fresh e he))
    · exact h.rows sid sc' hsc'
  same e he sc' hsc' := by
    rw [Table.row_insert, if_neg (Nat.ne_of_lt (h.fresh e he))] at hsc'
    exact h.same e he sc' hsc'

theorem accounted_insert (h : Accounted es s.scores sid) :
    Accounted es (s.scores.insert sc) sid := by
  rcases h with ⟨sc', hsc', hp⟩ | h
  · exact .inl ⟨sc', Table.row_insert_of_some hsc', hp⟩
  · exact .inr h

theorem Sums.register (h : Sums settings es s.stats) {um : UserMode} (hum : s.stats um = none) :
    Sums settings es (Function.update s.stats um (some {})) where
  counters um' st hst x := by
    by_cases heq : um' = um
    · subst heq
      rw [Function.update_self] at hst
      obtain rfl := Option.some.inj hst
      have hnone : es.filter (fun e => e.score.key.userMode = um') = [] := by
        refine List.filter_eq_nil_iff.mpr fun e he hkey => ?_
        have hsome := h.accounts e he
        rw [of_decide_eq_true hkey, hum] at hsome
        exact absurd hsome Bool.false_ne_true
      rw [total, hnone]
      cases x <;> rfl
    · rw [Function.update_of_ne heq] at hst
      exact h.counters um' st hst x
  accounts e he := by
    by_cases heq : e.score.key.userMode = um
    · rw [heq, Function.update_self]
      rfl
    · rw [Function.update_of_ne heq]
      exact h.accounts e he

/-- A score is finalised: it has its entry. -/
theorem Rows.finalize (h : Rows es s.scores) (hsc : s.scores.row sid = some sc)
    (hnew : sc.processed = false) {um : UserMode} {st : UserStatistics} {e : Entry}
    (hid : e.scoreId = sid) (hcore : e.score.core = { sc with processed := true }.core) :
    Rows (e :: es) (s.finalized sid um st).scores := by
  have hnot : sid ∉ es.map Entry.scoreId := fun hmem =>
    absurd (hnew.symm.trans ((h.rows sid sc hsc).mpr hmem)) Bool.false_ne_true
  have hrow : ∀ j sc', (s.finalized sid um st).scores.row j = some sc' →
      j = sid ∧ sc' = { sc with processed := true } ∨ j ≠ sid ∧ s.scores.row j = some sc' := by
    intro j sc' hsc'
    rw [State.finalized, Table.row_modify] at hsc'
    split at hsc'
    · next hj =>
      rw [hj, hsc] at hsc'
      exact .inl ⟨hj, (Option.some.inj hsc').symm⟩
    · next hj => exact .inr ⟨hj, hsc'⟩
  exact {
    once := by
      rw [List.map_cons, List.nodup_cons, hid]
      exact ⟨hnot, h.once⟩
    fresh := fun c hc => by
      rcases List.mem_cons.mp hc with rfl | hc
      · rw [hid]
        exact Table.lt_next (t := s.scores) hsc
      · exact h.fresh c hc
    rows := fun j sc' hsc' => by
      rw [List.map_cons, List.mem_cons, hid]
      rcases hrow j sc' hsc' with ⟨rfl, rfl⟩ | ⟨hj, hsc'⟩
      · exact ⟨fun _ => .inl rfl, fun _ => rfl⟩
      · rw [h.rows j sc' hsc']
        exact ⟨.inr, fun hmem => hmem.resolve_left hj⟩
    same := fun c hc sc' hsc' => by
      rcases List.mem_cons.mp hc with rfl | hc
      · rcases hrow _ sc' hsc' with ⟨-, rfl⟩ | ⟨hj, -⟩
        · exact hcore.symm
        · exact absurd hid hj
      · rcases hrow _ sc' hsc' with ⟨hj, -⟩ | ⟨-, hsc'⟩
        · exact absurd (hj ▸ List.mem_map_of_mem hc) hnot
        · exact h.same c hc sc' hsc' }

theorem total_cons {e : Entry} {um : UserMode} {x : Tally} :
    total settings (e :: es) um x = total settings es um x +
      if e.score.key.userMode = um then e.score.tally settings e.length x else 0 := by
  unfold total
  by_cases hum : e.score.key.userMode = um <;> simp [hum, Int.add_comm]

theorem Sums.finalize (h : Sums settings es s.stats) {um : UserMode} {st st' : UserStatistics}
    {e : Entry} (hum : e.score.key.userMode = um) (hst : s.stats um = some st)
    (htally : ∀ x, st'.tally x = st.tally x + e.score.tally settings e.length x) :
    Sums settings (e :: es) (Function.update s.stats um (some st')) where
  counters um' u hu x := by
    rw [total_cons, hum]
    by_cases heq : um' = um
    · subst heq
      rw [Function.update_self] at hu
      obtain rfl := Option.some.inj hu
      rw [htally, h.counters _ st hst, if_pos rfl]
    · rw [Function.update_of_ne heq] at hu
      rw [if_neg (Ne.symm heq), Int.add_zero]
      exact h.counters um' u hu x
  accounts c hc := by
    by_cases heq : c.score.key.userMode = um
    · rw [heq, Function.update_self]
      rfl
    · rw [Function.update_of_ne heq]
      rcases List.mem_cons.mp hc with rfl | hc
      · exact absurd hum heq
      · exact h.accounts c hc

/-- What is known of the entries of a history and the state it led to. -/
structure Kept (settings : Settings) (h : List (Event × State)) (s : State) : Prop where
  rows : Rows (finalised h) s.scores
  sums : Sums settings (finalised h) s.stats
  accounted : ∀ x ∈ h, ∀ sid sc, x.2.scores.row sid = some sc →
    (∃ uid t, (.deleteScore uid sid, t) ∈ h) ∨ Accounted (finalised h) s.scores sid

/-- A step keeps what is known if it keeps account of what was accounted for and not deleted. -/
theorem Kept.step {h : List (Event × State)} (hkept : Kept settings h s) {e : Event}
    (hrows : Rows (finalised ((e, t) :: h)) t.scores)
    (hsums : Sums settings (finalised ((e, t) :: h)) t.stats)
    (haccounted : ∀ sid, Accounted (finalised h) s.scores sid →
      (∃ uid, e = .deleteScore uid sid) ∨ Accounted (finalised ((e, t) :: h)) t.scores sid) :
    Kept settings ((e, t) :: h) t where
  rows := hrows
  sums := hsums
  accounted x hx sid sc hsc := by
    rcases List.mem_cons.mp hx with rfl | hx
    · exact .inr (hrows.accounted hsc)
    · rcases hkept.accounted x hx sid sc hsc with ⟨uid, u, hmem⟩ | hold
      · exact .inl ⟨uid, u, List.mem_cons_of_mem _ hmem⟩
      · rcases haccounted sid hold with ⟨uid, rfl⟩ | hnew
        · exact .inl ⟨uid, t, List.mem_cons_self⟩
        · exact .inr hnew

/-- A transaction that finalises nothing. -/
theorem Kept.live {srv : Deployment} {h : List (Event × State)}
    (hkept : Kept srv.toSettings h s) {e : Scores.Event} (hstep : Scores.Step srv s e t)
    (hother : ∀ calculated sid, e ≠ .finalize calculated sid) :
    Kept srv.toSettings ((.live e, t) :: h) t := by
  have hentries : finalised ((.live e, t) :: h) = finalised h := by
    cases e with
    | finalize calculated sid => exact absurd rfl (hother calculated sid)
    | _ => rfl
  have hsame : ∀ {u : State}, t.plays = u.plays → Rows (finalised h) u.scores →
      Sums srv.toSettings (finalised h) u.stats →
      (∀ sid, Accounted (finalised h) s.scores sid → Accounted (finalised h) u.scores sid) →
      Kept srv.toSettings ((.live e, t) :: h) t := by
    intro u hplays hrows hsums haccounted
    refine hkept.step ?_ ?_ fun sid hsid => ?_
    · rw [hentries]
      exact hrows.congr hplays
    · rw [hentries]
      exact hsums.congr hplays
    · rw [hentries]
      exact .inr (accounted_congr hplays (haccounted sid hsid))
  obtain ⟨hrows, hsums, -⟩ := hkept
  cases hstep.plays with
  | same hplays => exact hsame hplays hrows hsums fun _ hsid => hsid
  | register hnew hplays => exact hsame hplays hrows (hsums.register hnew) fun _ hsid => hsid
  | createSolo _ _ hplays => exact hsame hplays hrows hsums fun _ hsid => hsid
  | createPlaylist _ _ _ hplays => exact hsame hplays hrows hsums fun _ hsid => hsid
  | submitSolo _ _ hsc hplays =>
    exact hsame hplays (hrows.insert hsc.processed) hsums fun _ hsid => accounted_insert hsid
  | submitPlaylist _ _ _ _ _ hsc hplays =>
    exact hsame hplays (hrows.insert hsc.processed) hsums fun _ hsid => accounted_insert hsid
  | finalize => exact absurd rfl (hother _ _)

theorem Kept.finalize {srv : Deployment} {h : List (Event × State)}
    (hkept : Kept srv.toSettings h s) {calculated : Option ℚ}
    (hstep : Scores.Step srv s (.finalize calculated sid) t) :
    Kept srv.toSettings ((.live (.finalize calculated sid), t) :: h) t := by
  obtain ⟨u, hserve⟩ := hstep
  obtain ⟨sc, bm, st, st', hsc, hnew, hbm, hst, htally, hmaps, hplays⟩ :=
    plays_finalizeScore hserve
  have hrow : (s.finalized sid sc.key.userMode st').scores.row sid =
      some { sc with processed := true } := by
    simp [State.finalized, hsc]
  obtain ⟨sc', hsc', hcore⟩ := State.plays_score hplays.symm hrow
  have hmap : sc'.core.beatmapId = _ := congrArg Score.beatmapId hcore
  have hmap : sc'.beatmapId = sc.beatmapId := hmap
  have hkey : sc'.core.key = _ := congrArg Score.key hcore
  have hkey : sc'.key = sc.key := hkey
  have hadds : sc'.tally srv.toSettings bm.totalLength =
      sc.tally srv.toSettings bm.totalLength := by
    rw [← Score.tally_core, hcore, Score.tally_core]
    rfl
  have hentries : finalised ((.live (.finalize calculated sid), t) :: h) =
      ⟨sid, sc', bm.totalLength⟩ :: finalised h := by
    simp only [finalised, hsc', hmaps, hmap, hbm, Option.elim]
  have hrows : Rows (⟨sid, sc', bm.totalLength⟩ :: finalised h)
      (s.finalized sid sc.key.userMode st').scores := hkept.rows.finalize hsc hnew rfl hcore
  refine hkept.step ?_ ?_ fun sid' hsid' => .inr ?_
  · rw [hentries]
    exact hrows.congr hplays
  · rw [hentries]
    refine Sums.congr (s := s.finalized sid sc.key.userMode st') ?_ hplays
    exact hkept.sums.finalize (congrArg MapKey.userMode hkey) hst fun x => by rw [htally, hadds]
  · rw [hentries]
    rcases hsid' with ⟨sc'', hsc'', hp⟩ | hmem
    · by_cases heq : sid' = sid
      · exact .inr (heq ▸ List.mem_cons_self)
      · exact accounted_congr hplays (.inl ⟨sc'', by simp [State.finalized, heq, hsc''], hp⟩)
    · exact .inr (List.mem_cons_of_mem _ hmem)

end Soms.Lifetime
