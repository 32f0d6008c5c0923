import Soms.Somsai.Results

/-!
# The first valid score

What a round reads of the score table: for each member, the submission with the smallest id.  Two
tables that agree on these settle the round alike.
-/

namespace Soms.Somsai

open Txn

/-- The score counts for the current round of the match. -/
structure Match.Submission (m : Match) (slot : Slot) (score : ScoreRow) : Prop where
  room : score.roomId = some m.roomId
  item : score.playlistItemId = some m.state.playlistItemId
  member : score.userId ∈ membersOf m
  beatmap : score.beatmapId = slot.beatmapId
  revision : score.mapMd5 = slot.checksum
  mode : score.gamemode = GameMode.ofRuleset m.rulesetId

/-- The first score of a member in a table that counts for the round. -/
structure Match.First (m : Match) (slot : Slot) (table : List ScoreRow) (uid : UserId)
    (score : ScoreRow) : Prop where
  stored : score ∈ table
  counts : m.Submission slot score
  own : score.userId = uid
  earliest : ∀ other ∈ table, m.Submission slot other → other.userId = uid → score.id ≤ other.id

/-- The store with another score table. -/
def World.withScores (w : World) (table : List ScoreRow) : World :=
  { w with env := { w.env with scores := table } }

theorem World.withScores_self (w : World) : w.withScores w.env.scores = w := rfl

/-- What a settled round is counted with. -/
structure Outcome where
  totals : PerTeam Nat
  winner : Option Team
  players : List PlayerResult

/-- The round is left as it is, or counted with the outcome. -/
def Outcome.apply (ctx : Ctx) (k : MatchId) : Option Outcome → Act Unit
  | none => pure ()
  | some outcome => completeRound ctx k outcome.winner outcome.totals outcome.players

section First

variable {ctx : Ctx} {k : MatchId} {w : World} {m : Match} {slot : Slot} {uid : UserId}
  {table table' : List ScoreRow} {score : ScoreRow}

/-! ## The scores of a round -/

theorem mem_roundScores :
    score ∈ roundScores (w.withScores table) m slot ↔ score ∈ table ∧ m.Submission slot score := by
  unfold roundScores
  rw [(List.perm_insertionSort _ _).mem_iff, List.mem_filter, decide_eq_true_eq]
  exact and_congr_right fun _ =>
    ⟨fun ⟨hroom, hitem, hmember, hbeatmap, hrevision, hmode⟩ =>
      ⟨hroom, hitem, hmember, hbeatmap, hrevision, hmode⟩,
    fun h => ⟨h.room, h.item, h.member, h.beatmap, h.revision, h.mode⟩⟩

/-- The scores are read in the order of their ids. -/
theorem sorted_roundScores : (roundScores w m slot).Pairwise fun a b => a.id ≤ b.id :=
  List.pairwise_insertionSort (fun a b : ScoreRow => a.id ≤ b.id) _

/-- The score that is read for a member is the first one. -/
theorem first_of_find
    (h : (roundScores (w.withScores table) m slot).find? (fun s => s.userId = uid) = some score) :
    m.First slot table uid score := by
  obtain ⟨hown, before, after, hsplit, hbefore⟩ := List.find?_eq_some_iff_append.mp h
  have hstored := mem_roundScores.mp (List.mem_of_find?_eq_some h)
  refine ⟨hstored.1, hstored.2, by simpa using hown, fun other hother hcounts hsame => ?_⟩
  have hmem : other ∈ before ++ score :: after := hsplit ▸ mem_roundScores.mpr ⟨hother, hcounts⟩
  have hsorted : (before ++ score :: after).Pairwise fun a b => a.id ≤ b.id :=
    hsplit ▸ sorted_roundScores
  rcases List.mem_append.mp hmem with hin | hin
  · have hdiffers := hbefore other hin
    simp [hsame] at hdiffers
  · rcases List.mem_cons.mp hin with rfl | hin
    · exact le_rfl
    · exact (List.pairwise_cons.mp (List.pairwise_append.mp hsorted).2.1).1 other hin

theorem Match.First.unique {other : ScoreRow} (hids : (table.map (·.id)).Nodup)
    (h : m.First slot table uid score) (hother : m.First slot table uid other) : score = other :=
  List.inj_on_of_nodup_map hids h.stored hother.stored
    (le_antisymm (h.earliest other hother.stored hother.counts hother.own)
      (hother.earliest score h.stored h.counts h.own))

/-- Which score is read for a member. -/
theorem find_roundScores (hids : (table.map (·.id)).Nodup) :
    (roundScores (w.withScores table) m slot).find? (fun s => s.userId = uid) = some score ↔
      m.First slot table uid score := by
  refine ⟨first_of_find, fun h => ?_⟩
  cases hfind : (roundScores (w.withScores table) m slot).find? fun s => s.userId = uid with
  | none =>
    have := List.find?_eq_none.mp hfind score (mem_roundScores.mpr ⟨h.stored, h.counts⟩)
    simp [h.own] at this
  | some other => rw [(first_of_find hfind).unique hids h]

theorem mem_userIds :
    uid ∈ (roundScores (w.withScores table) m slot).map (·.userId) ↔
      ∃ score, m.First slot table uid score := by
  constructor
  · intro h
    obtain ⟨score, hscore, rfl⟩ := List.mem_map.mp h
    cases hfind : (roundScores (w.withScores table) m slot).find? fun s =>
        s.userId = score.userId with
    | none =>
      have := List.find?_eq_none.mp hfind score hscore
      simp at this
    | some first => exact ⟨first, first_of_find hfind⟩
  · rintro ⟨score, hfirst⟩
    exact List.mem_map.mpr ⟨score, mem_roundScores.mpr ⟨hfirst.stored, hfirst.counts⟩, hfirst.own⟩

/-! ## The outcome -/

/-- Every member has a score that counts, or one that was posted. -/
theorem allSubmitted_iff : m.allSubmitted (w.withScores table) slot = true ↔
    (∀ bot ∈ m.state.botScores, bot.userId ∈ membersOf m) ∧
      ∀ uid ∈ membersOf m, (∃ score, m.First slot table uid score) ∨
        ∃ bot ∈ m.state.botScores, bot.userId = uid := by
  unfold Match.allSubmitted sameMembers
  simp only [Bool.and_eq_true, List.all_eq_true, decide_eq_true_eq, List.mem_append, mem_userIds]
  constructor
  · rintro ⟨hlisted, hdone⟩
    refine ⟨fun bot hbot => hlisted _ (.inr (List.mem_map_of_mem hbot)), fun uid huid => ?_⟩
    exact (hdone uid huid).imp_right List.mem_map.mp
  · rintro ⟨hbots, hdone⟩
    refine ⟨?_, fun uid huid => (hdone uid huid).imp_right List.mem_map.mpr⟩
    rintro uid (⟨score, hfirst⟩ | hbot)
    · exact hfirst.own ▸ hfirst.counts.member
    · obtain ⟨bot, hposted, rfl⟩ := List.mem_map.mp hbot
      exact hbots bot hposted

/-- What a round is counted with, when it is counted. -/
def Match.outcome (force : Bool) (w : World) (m : Match) (slot : Slot) : Option Outcome :=
  if force || m.allSubmitted w slot then
    some { totals := m.roundTotals w slot
           winner := roundWinner (m.roundTotals w slot)
           players := m.roundPlayers w slot }
  else none

theorem settleRound_eq {force : Bool} (hrow : w.matchRows.row k = some m)
    (hstage : m.stage = .results) (hslot : m.state.playedSlot = some slot) :
    settleRound ctx k force w = Outcome.apply ctx k (m.outcome force w slot) w := by
  refine (bind_require_of_some (g := fun w : World => w.matchRows.row k) hrow).trans ?_
  rw [when, if_pos (decide_eq_true hstage)]
  refine (bind_require_of_some (g := fun _ => m.state.playedSlot) hslot).trans ?_
  show when (force || m.allSubmitted w slot) (completeRound ctx k
    (roundWinner (m.roundTotals w slot)) (m.roundTotals w slot) (m.roundPlayers w slot)) w = _
  unfold when Match.outcome
  split <;> rfl

/-- Tables with the same first scores give the same outcome. -/
theorem outcome_congr {force : Bool} (hids : (table.map (·.id)).Nodup)
    (hids' : (table'.map (·.id)).Nodup)
    (hfirst : ∀ uid ∈ membersOf m, ∀ score,
      m.First slot table uid score ↔ m.First slot table' uid score) :
    m.outcome force (w.withScores table) slot = m.outcome force (w.withScores table') slot := by
  have hplayers : m.roundPlayers (w.withScores table) slot =
      m.roundPlayers (w.withScores table') slot := by
    refine List.map_congr_left fun uid huid => ?_
    have hfind : (roundScores (w.withScores table) m slot).find? (fun s => s.userId = uid) =
        (roundScores (w.withScores table') m slot).find? fun s => s.userId = uid :=
      Option.ext fun score => by
        rw [find_roundScores hids, find_roundScores hids', hfirst uid huid]
    unfold playerResult
    rw [hfind]
  have hdone : m.allSubmitted (w.withScores table) slot =
      m.allSubmitted (w.withScores table') slot := by
    rw [Bool.eq_iff_iff, allSubmitted_iff, allSubmitted_iff]
    refine and_congr_right fun _ => forall₂_congr fun uid huid => or_congr_left ?_
    exact exists_congr fun score => hfirst uid huid score
  unfold Match.outcome Match.roundTotals
  rw [hplayers, hdone]

/-- Each member counts for their own team only. -/
theorem roundTotals_eq (hnodup : (membersOf m).Nodup) (team : Team) :
    (m.roundTotals w slot).get team = ((m.state.teams.get team).map fun uid =>
      (playerResult m (roundScores w m slot) uid).score).sum := by
  have hdisjoint := (List.nodup_append.mp hnodup).2.2
  have hfilter : (membersOf m).filter (fun uid => decide (uid ∈ m.state.teams.get team)) =
      m.state.teams.get team := by
    unfold membersOf
    rw [List.filter_append]
    cases team with
    | red =>
      have hred : m.state.teams.red.filter (fun uid => decide (uid ∈ m.state.teams.red)) =
          m.state.teams.red := List.filter_eq_self.mpr fun uid huid => decide_eq_true huid
      have hblue : m.state.teams.blue.filter (fun uid => decide (uid ∈ m.state.teams.red)) = [] :=
        List.filter_eq_nil_iff.mpr fun uid huid hred =>
          hdisjoint uid (of_decide_eq_true hred) uid huid rfl
      exact (congrArg₂ (· ++ ·) hred hblue).trans (List.append_nil _)
    | blue =>
      have hred : m.state.teams.red.filter (fun uid => decide (uid ∈ m.state.teams.blue)) = [] :=
        List.filter_eq_nil_iff.mpr fun uid huid hblue =>
          hdisjoint uid huid uid (of_decide_eq_true hblue) rfl
      have hblue : m.state.teams.blue.filter (fun uid => decide (uid ∈ m.state.teams.blue)) =
          m.state.teams.blue := List.filter_eq_self.mpr fun uid huid => decide_eq_true huid
      exact congrArg₂ (· ++ ·) hred hblue
  have htotal : (m.roundTotals w slot).get team = (((m.roundPlayers w slot).filter fun player =>
      decide (player.userId ∈ m.state.teams.get team)).map (·.score)).sum := by
    cases team <;> rfl
  rw [htotal, Match.roundPlayers, List.filter_map, List.map_map]
  have hsum : ((membersOf m).filter fun uid => decide (uid ∈ m.state.teams.get team)).map
      (fun uid => (playerResult m (roundScores w m slot) uid).score) =
      (m.state.teams.get team).map fun uid =>
        (playerResult m (roundScores w m slot) uid).score := congrArg _ hfilter
  exact congrArg List.sum hsum

/-- Scores that do not count, or come after one that does, are not first. -/
theorem first_added {extra : List ScoreRow} (hperm : table'.Perm (table ++ extra))
    (hextra : ∀ score ∈ extra, m.Submission slot score →
      ∃ other ∈ table, m.Submission slot other ∧ other.userId = score.userId ∧
        other.id < score.id) :
    m.First slot table' uid score ↔ m.First slot table uid score := by
  have hold : ∀ other ∈ table, other ∈ table' := fun other hother =>
    hperm.mem_iff.mpr (List.mem_append_left _ hother)
  constructor
  · intro h
    refine ⟨?_, h.counts, h.own, fun other hother => h.earliest other (hold other hother)⟩
    rcases List.mem_append.mp (hperm.mem_iff.mp h.stored) with htable | hadded
    · exact htable
    · obtain ⟨other, hother, hcounts, hsame, hless⟩ := hextra score hadded h.counts
      exact absurd (h.earliest other (hold other hother) hcounts (hsame.trans h.own)) hless.not_ge
  · intro h
    refine ⟨hold score h.stored, h.counts, h.own, fun other hother hcounts hown => ?_⟩
    rcases List.mem_append.mp (hperm.mem_iff.mp hother) with htable | hadded
    · exact h.earliest other htable hcounts hown
    · obtain ⟨first, hfirst, hcounts', hsame, hless⟩ := hextra other hadded hcounts
      exact (h.earliest first hfirst hcounts' (hsame.trans hown)).trans hless.le

/-- **Only the first valid score counts.**  One outcome serves every table with the same first
scores, in particular every table with further scores that do not count or come later; unforced
it settles the round only if every member has a score; and a team's total is the sum over its
members. -/
theorem settleRound_first (ctx : Ctx) (force : Bool) (hrow : w.matchRows.row k = some m)
    (hstage : m.stage = .results) (hslot : m.state.playedSlot = some slot)
    (hids : (w.env.scores.map (·.id)).Nodup) :
    ∃ outcome : Option Outcome,
      (∀ table, (table.map (·.id)).Nodup →
        (∀ uid ∈ membersOf m, ∀ score,
          m.First slot table uid score ↔ m.First slot w.env.scores uid score) →
        settleRound ctx k force (w.withScores table) =
          Outcome.apply ctx k outcome (w.withScores table)) ∧
      (∀ extra table, (table.map (·.id)).Nodup → table.Perm (w.env.scores ++ extra) →
        (∀ score ∈ extra, m.Submission slot score →
          ∃ other ∈ w.env.scores, m.Submission slot other ∧ other.userId = score.userId ∧
            other.id < score.id) →
        settleRound ctx k force (w.withScores table) =
          Outcome.apply ctx k outcome (w.withScores table)) ∧
      (force = false → outcome.isSome = true → ∀ uid ∈ membersOf m,
        (∃ score, m.First slot w.env.scores uid score) ∨
          ∃ bot ∈ m.state.botScores, bot.userId = uid) ∧
      ∀ settled, outcome = some settled →
        settled.winner = roundWinner settled.totals ∧
        settled.players = (membersOf m).map (playerResult m (roundScores w m slot)) ∧
        ((membersOf m).Nodup → ∀ team, settled.totals.get team =
          ((m.state.teams.get team).map fun uid =>
            (playerResult m (roundScores w m slot) uid).score).sum) := by
  have hsame : ∀ table, (table.map (·.id)).Nodup →
      (∀ uid ∈ membersOf m, ∀ score,
        m.First slot table uid score ↔ m.First slot w.env.scores uid score) →
      settleRound ctx k force (w.withScores table) =
        Outcome.apply ctx k (m.outcome force w slot) (w.withScores table) := fun table hids' h => by
    have hcongr : m.outcome force (w.withScores table) slot = m.outcome force w slot :=
      outcome_congr hids' hids h
    have hrow' : (w.withScores table).matchRows.row k = some m := hrow
    rw [settleRound_eq hrow' hstage hslot, hcongr]
  refine ⟨m.outcome force w slot, hsame, fun extra table hids' hperm hextra =>
    hsame table hids' fun uid _ score => first_added hperm hextra, fun hforce hsome => ?_,
    fun settled hsettled => ?_⟩
  · have hdone : m.allSubmitted (w.withScores w.env.scores) slot = true := by
      by_contra hopen
      have hwaits : ¬ (force || m.allSubmitted w slot) = true := by
        rw [hforce, Bool.false_or]
        exact hopen
      rw [Match.outcome, if_neg hwaits] at hsome
      simp at hsome
    exact (allSubmitted_iff.mp hdone).2
  · unfold Match.outcome at hsettled
    split at hsettled
    · obtain rfl := Option.some.inj hsettled
      exact ⟨rfl, rfl, roundTotals_eq⟩
    · simp at hsettled

/-- The score of an outsider in the first round of `unscoredStore`. -/
def outsiderScore : ScoreRow :=
  { id := 1, userId := 3, roomId := some 1, playlistItemId := some 1, beatmapId := 2, mapMd5 := "",
    gamemode := .osu, totalScore := 900000, accuracy := 1, maxCombo := 100, n300 := 100, n100 := 0,
    n50 := 0, nmiss := 0, ngeki := 0, nkatu := 0, rank := "X", passed := true }

theorem settleRound_first_outsider : ∃ outcome : Option Outcome,
    settleRound (.steady 0) 1 true unscoredStore =
      Outcome.apply (.steady 0) 1 outcome unscoredStore ∧
    settleRound (.steady 0) 1 true (unscoredStore.withScores [outsiderScore]) =
      Outcome.apply (.steady 0) 1 outcome (unscoredStore.withScores [outsiderScore]) := by
  obtain ⟨m, hrow, -, hstage, -⟩ := unscored_round
  have hround : (unscoredStore.matchRows.row 1).map (fun m =>
      (m.state.playedSlot.isSome, decide (3 ∈ membersOf m))) = some (true, false) := by
    decide +kernel
  rw [hrow] at hround
  obtain ⟨hplayed, hmember⟩ := Prod.mk.inj (Option.some.inj hround)
  obtain ⟨slot, hslot⟩ := Option.isSome_iff_exists.mp hplayed
  have hscores : unscoredStore.env.scores = [] := by decide +kernel
  have hids : (unscoredStore.env.scores.map (·.id)).Nodup := by
    rw [hscores]
    exact List.nodup_nil
  obtain ⟨outcome, hsame, hadded, -⟩ := settleRound_first (.steady 0) true hrow hstage hslot hids
  have hown := hsame _ hids fun _ _ _ => .rfl
  rw [World.withScores_self] at hown
  refine ⟨outcome, hown, hadded [outsiderScore] _ (by decide) (by rw [hscores]; exact .refl _)
    fun score hscore hcounts => ?_⟩
  obtain rfl := List.mem_singleton.mp hscore
  exact absurd hcounts.member (of_decide_eq_false hmember)

end First

end Soms.Somsai
