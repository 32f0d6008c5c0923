import Soms.Somsai.Links
import Soms.Somsai.Ticks

/-!
# The results of a round

A round that ends without a winner is replayed when its scores were tied and
skipped when it was not played.  Both stand in the history without a winner, and
both count towards the third draw.
-/

namespace Soms.Somsai

open Txn World

/-! ## Ties -/

/-- The reason of a match that the third draw ends. -/
def threeDraws : String := "Three draws: the match ended in a draw."

/-- Whether the round was played to a tied score. -/
def HistoryEntry.tied (entry : HistoryEntry) : Bool :=
  !entry.forfeit && decide (entry.teamScores.red = entry.teamScores.blue)

namespace Match

/-- The rounds that were played to a tied score. -/
def tied (m : Match) : Nat := m.state.history.countP HistoryEntry.tied

/-- A tick settles the round that was played, and its score is tied. -/
structure SettlesTie (ctx : Ctx) (w : World) (m : Match) : Prop where
  stage : m.stage = .results
  seen : ¬ m.lost ctx.now
  online : offlineTeams ctx.now m = []
  tie : ∃ slot, m.state.playedSlot = some slot ∧
    (m.expired ctx.now = true ∨ m.allSubmitted w slot = true) ∧
    (m.roundTotals w slot).red = (m.roundTotals w slot).blue

end Match

theorem Match.Ending.reason_ne {ctx : Ctx} {m : Match} {winner : Option Team} {cancelled : Bool}
    {reason : String} (h : m.Ending ctx winner cancelled reason) : reason ≠ threeDraws := by
  cases h <;> decide

theorem Match.Concludes.draw {m : Match} {winner champion : Option Team} {forfeit cancelled : Bool}
    {why : String} (h : m.Concludes winner forfeit champion cancelled why)
    (hwhy : why = threeDraws) : (winner = none ∧ forfeit = false) ∧ 3 ≤ m.undecided := by
  cases h with
  | won | gone => exact absurd hwhy (by decide)
  | draws _ hdraw hthree => exact ⟨hdraw, hthree⟩

/-- One more round without a winner, or not. -/
theorem Match.undecided_record {ctx : Ctx} {m : Match} {slot : Slot} {winner : Option Team}
    {totals : PerTeam Nat} {players : List PlayerResult} {forfeit : Bool} {reason : String} :
    (m.record ctx slot winner totals players forfeit reason).undecided =
      m.undecided + if winner = none then 1 else 0 := by
  by_cases hwinner : winner = none <;>
    simp [undecided, record, touch, List.filter_append, hwinner]

theorem roundWinner_none {totals : PerTeam Nat} (h : roundWinner totals = none) :
    totals.red = totals.blue := by
  unfold roundWinner at h
  split at h
  · simp at h
  · split at h
    · simp at h
    · omega

/-- Matches that ended in three draws were tied three times. -/
def World.DrawsPlayed (w : World) : Prop :=
  ∀ k m, w.matchRows.row k = some m → m.stage = .ended → m.state.reason = threeDraws → 3 ≤ m.tied

/-- A tie that the event settles after two rounds without a winner comes after two
ties. -/
def World.KeepsDraws (w : World) : Event → Prop
  | .served ctx .tick => ∀ k m, w.matchRows.row k = some m → m.SettlesTie ctx w →
      2 ≤ m.undecided → 2 ≤ m.tied
  | _ => True

section Draws

variable {ctx : Ctx} {w t : World} {k : MatchId} {m m' : Match}

/-- Only a settled round ends a match in three draws. -/
theorem RowChange.unsettled {o : Option Match} (h : RowChange False ctx k o (some m'))
    (hended : m'.stage = .ended) (hreason : m'.state.reason = threeDraws) : o = some m' := by
  cases h with
  | same => rfl
  | update w hupdate =>
    have hlive := hupdate.move.live'
    rw [hended] at hlive
    simp [Stage.final] at hlive
  | @ends m hlive winner cancelled reason hending changes =>
    have hwhy : reason = threeDraws := hreason
    exact absurd hwhy hending.reason_ne
  | @concludes m w slot winner totals players forfeit reason hslot hcounts champion cancelled why
      hconcludes changes =>
    have hwhy : why = threeDraws := hreason
    have hforfeit := (hconcludes.draw hwhy).1.2
    -- Only a settled round is not forfeited.
    cases hcounts with
    | settled hclock => exact hclock.elim
    | aborted | missed => simp at hforfeit
  | seat hranked hstage =>
    exact absurd (hstage.symm.trans hended) (by simp)
  | opens => simp [newMatch] at hended

theorem RowChanges.unsettled {o o' : Option Match} (h : RowChanges False ctx k o o')
    (ho : o' = some m') (hended : m'.stage = .ended) (hreason : m'.state.reason = threeDraws) :
    o = some m' := by
  induction h with
  | refl => exact ho
  | tail _ hlast ih =>
    subst ho
    exact ih (hlast.unsettled hended hreason)

/-- A tick that ends a match in three draws settled a tie. -/
theorem tickMatch_draws {u : Unit} (hrow : w.matchRows.row k = some m)
    (hlive : m.stage.final = false) (h : tickMatch ctx k w = (.ok u, t))
    (hrow' : t.matchRows.row k = some m') (hended : m'.stage = .ended)
    (hreason : m'.state.reason = threeDraws) :
    m.SettlesTie ctx w ∧ 2 ≤ m.undecided ∧ m'.tied = m.tied + 1 := by
  -- What a settled round did not do leaves the match as it was, or gives another reason.
  have hother : Plays False ctx k w t → False := by
    intro hplays
    have hrows := World.Changes.row hplays.changes k
    rw [hrow'] at hrows
    have hsame := hrows.unsettled rfl hended hreason
    rw [hrow] at hsame
    rw [Option.some.inj hsame, hended] at hlive
    simp [Stage.final] at hlive
  rcases tickMatch_ok hrow hlive h with ⟨hlost, rfl⟩ | ⟨-, hoffline, rfl⟩ | ⟨hseen, honline, h⟩
  · exact (hother (Play.finish hrow hlive (.lost hlost.1 hlost.2)).plays).elim
  · exact (hother (Play.finish hrow hlive (.offline hoffline)).plays).elim
  by_cases hstage : m.stage = .results
  swap
  · exact (hother (tickStage_unsettled hrow hstage h)).elim
  rcases settleRound_ok hrow (tickStage_results hstage h) with ⟨-, rfl⟩ | ⟨-, slot, hslot, hdone, h⟩
  · exact (hother .refl).elim
  obtain ⟨slot', hslot', ⟨champion, cancelled, why, hconcludes, rfl⟩ | ⟨m₂, hresumes, hquiet⟩⟩ :=
    completeRound_ok hrow h
  · obtain rfl := Option.some.inj (hslot.symm.trans hslot')
    obtain ⟨changes, hrow₂⟩ := row_finishMatch ctx champion cancelled why
      (row_putMatch hrow (m.record ctx slot (roundWinner (m.roundTotals w slot))
        (m.roundTotals w slot) (m.roundPlayers w slot) false "")) hlive
    obtain rfl := Option.some.inj (hrow₂.symm.trans hrow')
    obtain ⟨⟨hwinner, -⟩, hthree⟩ := hconcludes.draw hreason
    have htie := roundWinner_none hwinner
    rw [Match.undecided_record, if_pos hwinner] at hthree
    refine ⟨⟨hstage, hseen, honline, slot, hslot, hdone, htie⟩, by omega, ?_⟩
    simp [Match.tied, Match.withRatings, Match.closed, Match.record, Match.touch,
      HistoryEntry.tied, htie]
  · have hlive₂ := hresumes.seats.2.1
    have hrow₂ := hquiet.row.trans (row_putMatch hrow m₂)
    rw [Option.some.inj (hrow'.symm.trans hrow₂)] at hended
    rw [hended] at hlive₂
    simp [Stage.final] at hlive₂

theorem Match.SettlesTie.frame {v : World} (h : m.SettlesTie ctx v) (henv : v.env = w.env) :
    m.SettlesTie ctx w := by
  obtain ⟨slot, hslot, hdone, htie⟩ := h.tie
  refine ⟨h.stage, h.seen, h.online, slot, hslot, ?_, ?_⟩
  · simpa only [Match.allSubmitted, roundScores, henv] using hdone
  · simpa only [Match.roundTotals, Match.roundPlayers, roundScores, henv] using htie

/-- Every event that keeps the draws leaves them played. -/
theorem Step.drawsPlayed {e : Event} (h : Step w e t) (hkeeps : w.KeepsDraws e)
    (hw : w.DrawsPlayed) : t.DrawsPlayed := by
  by_cases hticks : e.ticks
  · cases h with
    | changed => exact hticks.elim
    | served ctx request =>
      have hticks : request = .tick := hticks
      subst hticks
      rcases after_cases w ctx .tick with ⟨u, hrun⟩ | hsame
      · intro k m' hrow' hended hreason
        rcases tick_ok_env (k := k) hrun with ⟨-, hsame | ⟨m, v₁, v₂, hmade, hrow, hturn, hafter⟩⟩ |
          ⟨m, v₁, v₂, hrow, hlive, hrow₁, henv, hturn, hafter⟩
        · exact hw k m' (hsame ▸ hrow') hended hreason
        · -- A match that was just made is still waiting.
          obtain ⟨setup, pool, rating, room, -, rfl⟩ := hmade
          have hstage := (tickMatch_draws hrow rfl hturn (hafter ▸ hrow') hended hreason).1.stage
          simp [newMatch] at hstage
        · obtain ⟨hsettles, htwo, htied⟩ :=
            tickMatch_draws hrow₁ hlive hturn (hafter ▸ hrow') hended hreason
          have htwo' := hkeeps k m hrow (hsettles.frame henv) htwo
          omega
      · rwa [hsame]
  · intro k m' hrow' hended hreason
    obtain ⟨ctx, hrows⟩ := h.row k
    rw [eq_false hticks, hrow'] at hrows
    exact hw k m' (hrows.unsettled rfl hended hreason) hended hreason

end Draws

/-- A match that ends in three draws was tied three times, along the runs in which no
tie is counted after rounds that were skipped. -/
theorem three_draws_played {w : World} (h : Reaches World.KeepsDraws w) : w.DrawsPlayed := by
  obtain ⟨w₀, h₀, hrun⟩ := h
  have hstart : w₀.DrawsPlayed := by simp [DrawsPlayed, h₀.matchRows]
  have hinv := hrun.invariant (fun s e t hs hP hone => hone.drawsPlayed hP hs) hstart
  exact hinv

/-- A move in match 1. -/
def World.moves (w : World) (uid : UserId) (act : MatchAct) (slotId : String := "") : World :=
  w.acts uid (.play (some 1) act (some slotId) none none)

/-- The room of match 1 reports both players, with the map. -/
def World.hears (w : World) (event : RoomEventKind) (item : Nat) : World :=
  w.after (.steady 0) (.roomEvent 1
    { event := event, playlistItemId := item, connected := [1, 2], ready := [1, 2],
      available := some [1, 2] })

/-- The scores of both players on an item are the same. -/
def World.tiedScores (w : World) (item beatmapId : Nat) : Outside :=
  { env := { w.env with
      scores := [1, 2].map fun uid =>
        { id := uid, userId := uid, roomId := some 1, playlistItemId := some item,
          beatmapId := beatmapId, mapMd5 := "", gamemode := .osu, totalScore := 500000,
          accuracy := 1, maxCombo := 100, n300 := 100, n100 := 0, n50 := 0, nmiss := 0, ngeki := 0,
          nkatu := 0, rank := "X", passed := true } }
    users := w.users
    penalties := []
    nextRoom := w.nextRoom }

/-- The players are ready, and tie on the item. -/
def World.ties (w : World) (item beatmapId : Nat) : World :=
  let played := (((w.moves 1 .ready).moves 2 .ready).hears .started item).hears .completed item
  played.outside (played.tiedScores item beatmapId)

theorem World.allowed_tiedScores (w : World) (item beatmapId : Nat) :
    (w.tiedScores item beatmapId).Allowed w where
  users_next := Nat.le_refl _
  users_kept := fun _ user hrow => ⟨user, hrow, rfl⟩
  penalties_native := by simp [tiedScores]
  rooms := Nat.le_refl _

section Runs

variable {P : World → Event → Prop} {w : World}

theorem Reaches.moves (hP : ∀ v e, ¬ e.ticks → P v e) (h : Reaches P w) (uid : UserId)
    (act : MatchAct) (slotId : String) : Reaches P (w.moves uid act slotId) :=
  h.acts uid _ (hP _ _ (by simp [Event.ticks]))

theorem Reaches.hears (hP : ∀ v e, ¬ e.ticks → P v e) (h : Reaches P w) (event : RoomEventKind)
    (item : Nat) : Reaches P (w.hears event item) :=
  h.after _ _ (hP _ _ (by simp [Event.ticks]))

theorem Reaches.ties (hP : ∀ v e, ¬ e.ticks → P v e) (h : Reaches P w) (item beatmapId : Nat) :
    Reaches P (w.ties item beatmapId) :=
  ((((h.moves hP 1 .ready "").moves hP 2 .ready "").hears hP .started item).hears hP .completed
    item).step (hP _ _ id) (.changed _ _ (World.allowed_tiedScores _ item beatmapId))

theorem reaches_duelStore (hP : ∀ v e, ¬ e.ticks → P v e) : Reaches P duelStore :=
  (reaches_threePlayers.acts 1 _ (hP _ _ (by simp [Event.ticks]))).acts 2 _
    (hP _ _ (by simp [Event.ticks]))

/-- The first map of the duel is picked. -/
def pickedStore : World := ((duelStore.moves 1 .ban "NM1").moves 2 .ban "NM2").moves 1 .pick "NM3"

theorem reaches_pickedStore (hP : ∀ v e, ¬ e.ticks → P v e) : Reaches P pickedStore :=
  (((reaches_duelStore hP).moves hP 1 .ban "NM1").moves hP 2 .ban "NM2").moves hP 1 .pick "NM3"

end Runs

/-- The start of the first two rounds is aborted, and the third is a tie. -/
def skippedStore : World :=
  (((pickedStore.hears .aborted 1).moves 2 .pick "NM4").hears .aborted 2).moves 1 .pick "HD1"

theorem reaches_skippedStore : Reaches anyEvent skippedStore :=
  have hany : ∀ v e, ¬ e.ticks → anyEvent v e := fun _ _ _ => trivial
  ((((reaches_pickedStore hany).hears hany .aborted 1).moves hany 2 .pick "NM4").hears hany
    .aborted 2).moves hany 1 .pick "HD1"

/-- The clock settles one tie after two skipped rounds. -/
def drawnStore : World := (skippedStore.ties 3 4).after (.steady 0) .tick

/-- One tie ends the match in three draws. -/
theorem one_tie_three_draws : Reaches anyEvent drawnStore ∧ ¬ drawnStore.DrawsPlayed := by
  refine ⟨(reaches_skippedStore.ties (fun _ _ _ => trivial) 3 4).after _ _ trivial,
    fun hplayed => ?_⟩
  have hrow : (drawnStore.matchRows.row 1).map (fun m => (m.stage, m.state.reason, m.tied)) =
      some (.ended, threeDraws, 1) := by
    decide +kernel
  obtain ⟨m, hm, hends⟩ := Option.map_eq_some_iff.mp hrow
  obtain ⟨hended, hends⟩ := Prod.mk.inj hends
  obtain ⟨hreason, htied⟩ := Prod.mk.inj hends
  have hthree := hplayed 1 m hm hended hreason
  omega

theorem World.keepsDraws_of_rows {w : World} {e : Event}
    (h : ∀ x ∈ w.matchRows.toList, 2 ≤ x.2.undecided → 2 ≤ x.2.tied) : w.KeepsDraws e := by
  cases e with
  | changed => trivial
  | served ctx request =>
    cases request <;> first | trivial | exact fun k m hrow _ => h (k, m) (Table.mem_toList.mpr hrow)

/-- The first map is tied three times. -/
def tiedOnce : World := (pickedStore.ties 1 2).after (.steady 0) .tick

def tiedTwice : World := (tiedOnce.ties 2 2).after (.steady 0) .tick

def tiedThrice : World := (tiedTwice.ties 3 2).after (.steady 0) .tick

theorem three_draws_played_thrice : tiedThrice.DrawsPlayed ∧
    (tiedThrice.matchRows.row 1).map (fun m => (m.stage, m.state.reason)) =
      some (.ended, threeDraws) := by
  have hother : ∀ v e, ¬ e.ticks → World.KeepsDraws v e := by
    intro v e hticks
    cases e with
    | changed => trivial
    | served ctx request => cases request <;> trivial
  refine ⟨three_draws_played (((((((reaches_pickedStore hother).ties hother 1 2).after _ _
    (keepsDraws_of_rows ?_)).ties hother 2 2).after _ _ (keepsDraws_of_rows ?_)).ties hother 3
      2).after _ _ (keepsDraws_of_rows ?_)), ?_⟩ <;> decide +kernel

/-! ## No results -/

namespace Match

/-- No member has a counting score for the round. -/
def NoResults (w : World) (m : Match) : Prop :=
  ∀ slot, m.state.playedSlot = some slot → ∀ player ∈ m.roundPlayers w slot, player.missing = true

end Match

/-- Whether the server still has the beatmap of a slot. -/
def World.playable (w : World) (slot : Slot) : Bool :=
  ((w.env.beatmaps slot.beatmapId).filter (!·.deleted)).isSome

/-- When a round without results cancels its match: the room is lost, members of both
teams stay away, or nobody does, fewer than two rounds were undecided, and the
beatmap is gone. -/
def Match.Voided (ctx : Ctx) (w : World) (m : Match) : Prop :=
  m.lost ctx.now ∨ (offlineTeams ctx.now m).length = 2 ∨
    (offlineTeams ctx.now m = [] ∧ m.undecided < 2 ∧
      ∀ slot, m.state.playedSlot = some slot → w.playable slot = false)

section NoResults

variable {ctx : Ctx} {w t : World} {k : MatchId} {m m' : Match} {slot : Slot}

/-- Missing players score nothing. -/
theorem Match.NoResults.totals (h : m.NoResults w) (hslot : m.state.playedSlot = some slot) :
    m.roundTotals w slot = ⟨0, 0⟩ := by
  have hzero : ∀ player ∈ m.roundPlayers w slot, player.score = 0 := by
    intro player hplayer
    have hmissing := h slot hslot player hplayer
    obtain ⟨uid, -, rfl⟩ := List.mem_map.mp hplayer
    simp only [playerResult, Bool.and_eq_true, Option.isNone_iff_eq_none] at hmissing ⊢
    rw [hmissing.1, hmissing.2]
    rfl
  have hsum : ∀ team : List UserId, (((m.roundPlayers w slot).filter fun player =>
      decide (player.userId ∈ team)).map (·.score)).sum = 0 := by
    intro team
    refine List.sum_eq_zero fun score hscore => ?_
    obtain ⟨player, hplayer, rfl⟩ := List.mem_map.mp hscore
    exact hzero player (List.mem_filter.mp hplayer).1
  simp only [roundTotals, teamTotals, PerTeam.map, hsum]

/-- A cancelled match changes no rating. -/
theorem cancelled_finish (hrow : w.matchRows.row k = some m) (hlive : m.stage.final = false)
    (winner : Option Team) (reason : String) :
    (∃ m', (w.finishMatch ctx k winner true reason).matchRows.row k = some m' ∧
      m'.stage = .cancelled) ∧ (w.finishMatch ctx k winner true reason).ratings = w.ratings := by
  obtain ⟨changes, _, _, hframe⟩ := finishMatch_frame ctx winner true reason hrow hlive
  rw [hframe]
  refine ⟨⟨_, row_putMatch hrow _, rfl⟩, ?_⟩
  simp [settle]

/-- A match that ends otherwise is not cancelled. -/
theorem ended_finish (hrow : w.matchRows.row k = some m) (hlive : m.stage.final = false)
    (winner : Option Team) (reason : String) :
    ∃ m', (w.finishMatch ctx k winner false reason).matchRows.row k = some m' ∧
      m'.stage = .ended := by
  obtain ⟨changes, hrow'⟩ := row_finishMatch ctx winner false reason hrow hlive
  exact ⟨_, hrow', rfl⟩

/-- A tied round either is the third without a winner or is to be played again. -/
theorem completeRound_tie {totals : PerTeam Nat} {players : List PlayerResult} {reason : String}
    {u : Unit} (hrow : w.matchRows.row k = some m) (hslot : m.state.playedSlot = some slot)
    (hbelow : m.state.maxWins < m.state.target)
    (h : completeRound ctx k none totals players false reason w = (.ok u, t)) :
    (2 ≤ m.undecided ∧ t = (w.putMatch k (m.record ctx slot none totals players false
      reason)).finishMatch ctx k none false threeDraws) ∨
    (m.undecided < 2 ∧ selectMap ctx k slot.id (w.putMatch k (m.record ctx slot none totals players
      false reason)) = (.ok u, t)) := by
  obtain ⟨m₁, _, hget, h⟩ := bind_ok.mp h
  obtain ⟨hrow₁, rfl⟩ := getMatch_ok hget
  obtain rfl := Option.some.inj (hrow.symm.trans hrow₁)
  obtain ⟨slot₁, _, hreq, h⟩ := bind_ok.mp h
  obtain ⟨hslot₁, rfl⟩ := require_ok.mp hreq
  obtain rfl := Option.some.inj (hslot.symm.trans hslot₁)
  obtain ⟨_, _, hput, h⟩ := bind_ok.mp h
  obtain rfl := write_ok.mp hput
  have hundecided : (m.record ctx slot none totals players false reason).undecided =
      m.undecided + 1 := Match.undecided_record
  have hbelow : (m.record ctx slot none totals players false reason).state.maxWins <
      (m.record ctx slot none totals players false reason).state.target := hbelow
  rw [if_neg (Nat.not_le_of_lt hbelow), if_pos ⟨rfl, rfl⟩] at h
  split at h
  · next hthree =>
    have hthree : 3 ≤ (m.record ctx slot none totals players false reason).undecided := hthree
    obtain rfl := write_ok.mp h
    exact .inl ⟨by omega, rfl⟩
  · next hfew =>
    have hfew : ¬ 3 ≤ (m.record ctx slot none totals players false reason).undecided := hfew
    exact .inr ⟨by omega, h⟩

/-- Selecting a slot cancels the match exactly when its beatmap is gone. -/
theorem selectMap_cancels {slotId : String} {u : Unit} (hrow : w.matchRows.row k = some m)
    (hslot : m.state.findSlot slotId = some slot)
    (h : selectMap ctx k slotId w = (.ok u, t)) :
    (w.playable slot = false ∧ t = w.finishMatch ctx k none true
      ("A pool beatmap is no longer available. " ++
        "The match was cancelled without a rating change.")) ∨
    (w.playable slot = true ∧ ∃ m', t.matchRows.row k = some m' ∧ m'.stage = .ready) := by
  obtain ⟨m₁, _, hget, h⟩ := bind_ok.mp h
  obtain ⟨hrow₁, rfl⟩ := getMatch_ok hget
  obtain rfl := Option.some.inj (hrow.symm.trans hrow₁)
  obtain ⟨slot₁, _, hreq, h⟩ := bind_ok.mp h
  obtain ⟨hslot₁, rfl⟩ := require_ok.mp hreq
  obtain rfl := Option.some.inj (hslot.symm.trans hslot₁)
  obtain rfl := write_ok.mp h
  unfold selectSlot playable
  cases (w.env.beatmaps slot.beatmapId).filter (!·.deleted) with
  | none => exact .inl ⟨rfl, rfl⟩
  | some beatmap => exact .inr ⟨rfl, _, row_putMatch hrow _, rfl⟩

/-- The slot of the round just counted, as `select_map` finds it again. -/
theorem findSlot_played (hslot : m.state.playedSlot = some slot) {totals : PerTeam Nat}
    {players : List PlayerResult} {winner : Option Team} {forfeit : Bool} {reason : String} :
    (m.record ctx slot winner totals players forfeit reason).state.findSlot slot.id =
      some { slot with status := .played } := by
  have h := find_modifySlot (f := fun slot => { slot with status := .played }) (fun _ => rfl)
    slot.id slot.id m.state.slots
  have hfound : m.state.slots.find? (fun s => s.id = slot.id) = some slot :=
    (playedSlot_some hslot).2
  rwa [if_pos rfl, hfound] at h

/-- What the turn of a match without results does. -/
theorem tickMatch_void {u : Unit} (hrow : w.matchRows.row k = some m) (hm : m.Orderly)
    (hstage : m.stage = .results) (hexpired : m.expired ctx.now = true) (hnone : m.NoResults w)
    (h : tickMatch ctx k w = (.ok u, t)) :
    ∃ m', t.matchRows.row k = some m' ∧
      (m'.stage = .cancelled ∧ t.ratings = w.ratings ↔ m.Voided ctx w) := by
  have hlive : m.stage.final = false := by rw [hstage]; rfl
  have hcancelled : ∀ {v : World} {r : Match} (winner : Option Team) (reason : String),
      v.matchRows.row k = some r → r.stage.final = false → v.ratings = w.ratings →
      m.Voided ctx w → ∃ m', (v.finishMatch ctx k winner true reason).matchRows.row k = some m' ∧
        (m'.stage = .cancelled ∧ (v.finishMatch ctx k winner true reason).ratings = w.ratings ↔
          m.Voided ctx w) := by
    intro v r winner reason hr hrlive hsame hvoid
    obtain ⟨⟨m', hm', hcancel⟩, hratings⟩ := cancelled_finish hr hrlive winner reason
    exact ⟨m', hm', fun _ => hvoid, fun _ => ⟨hcancel, hratings.trans hsame⟩⟩
  have hopen : ∀ {v : World} {m' : Match}, v.matchRows.row k = some m' → m'.stage ≠ .cancelled →
      ¬ m.Voided ctx w → ∃ m', v.matchRows.row k = some m' ∧
        (m'.stage = .cancelled ∧ v.ratings = w.ratings ↔ m.Voided ctx w) := by
    intro v m' hm' hother hvoid
    exact ⟨m', hm', fun hcancel => absurd hcancel.1 hother, fun hyes => absurd hyes hvoid⟩
  rcases tickMatch_ok hrow hlive h with ⟨hlost, rfl⟩ | ⟨hseen, hoffline, rfl⟩ |
    ⟨hseen, honline, h⟩
  · exact hcancelled none _ hrow hlive rfl (.inl hlost)
  · by_cases hboth : (offlineTeams ctx.now m).length = 2
    · rw [decide_eq_true hboth]
      exact hcancelled _ _ hrow hlive rfl (.inr (.inl hboth))
    · rw [decide_eq_false hboth]
      obtain ⟨m', hm', hended⟩ := ended_finish hrow hlive _ _
      refine hopen hm' (by simp [hended]) ?_
      rintro (hlost | hlength | ⟨honline, -⟩)
      · exact hseen hlost
      · exact hboth hlength
      · exact hoffline honline
  · rcases settleRound_ok hrow (tickStage_results hstage h) with ⟨hopen, -⟩ |
      ⟨-, slot, hslot, -, h⟩
    · rw [hopen hstage] at hexpired
      simp at hexpired
    · rw [hnone.totals hslot] at h
      have hrecord := row_putMatch hrow
        (m.record ctx slot none ⟨0, 0⟩ (m.roundPlayers w slot) false "")
      have hvoid : m.Voided ctx w ↔ m.undecided < 2 ∧ w.playable slot = false := by
        simp only [Match.Voided, hseen, honline, List.length_nil, hslot, false_or]
        simp
      rcases completeRound_tie hrow hslot (hm.board.below hlive) h with ⟨htwo, rfl⟩ | ⟨hfew, h⟩
      · obtain ⟨m', hm', hended⟩ := ended_finish hrecord hlive none threeDraws
        exact hopen hm' (by simp [hended]) fun hyes => by have := (hvoid.mp hyes).1; omega
      · rcases selectMap_cancels hrecord (findSlot_played hslot) h with ⟨hgone, rfl⟩ |
          ⟨hthere, m', hm', hready⟩
        · exact hcancelled none _ hrecord hlive rfl (hvoid.mpr ⟨hfew, hgone⟩)
        · have hthere : w.playable slot = true := hthere
          refine hopen hm' (by simp [hready]) fun hyes => ?_
          rw [(hvoid.mp hyes).2] at hthere
          simp at hthere

/-- At the first tick after the results deadline of a round without results, the match
is cancelled and its players keep their ratings exactly when it is `Voided`. -/
theorem no_results_void {P : World → Event → Prop} (hreach : Reaches P w)
    (hrow : w.matchRows.row k = some m) (hstage : m.stage = .results)
    (hexpired : m.expired ctx.now = true) (hnone : m.NoResults w)
    (h : tick ctx (w.lockSomsai ctx.now) = (.ok (), t)) : ∃ v u m',
      tickMatch ctx k v = (.ok (), u) ∧ v.matchRows.row k = some m ∧ u.matchRows.row k = some m' ∧
        t.matchRows.row k = some m' ∧
          (m'.stage = .cancelled ∧ u.ratings = v.ratings ↔ m.Voided ctx w) := by
  have hlive : m.stage.final = false := by rw [hstage]; rfl
  rcases tick_ok_env (k := k) h with ⟨hfinal, -⟩ | ⟨m₁, v₁, v₂, hrow₁, -, hv₁, henv, hturn, ht⟩
  · rw [hfinal m hrow] at hlive
    simp at hlive
  · obtain rfl := Option.some.inj (hrow.symm.trans hrow₁)
    have hnone₁ : m.NoResults v₁ := by
      simpa only [Match.NoResults, Match.roundPlayers, roundScores, henv] using hnone
    obtain ⟨m', hm', hvoid⟩ :=
      tickMatch_void hv₁ (hreach.orderly.rows k m hrow) hstage hexpired hnone₁ hturn
    refine ⟨v₁, v₂, m', hturn, hv₁, hm', ht.trans hm', hvoid.trans ?_⟩
    simp only [Match.Voided, playable, henv]

end NoResults

/-- Players 1 and 2 meet in the queue, draft, play a map and submit nothing. -/
def unscoredStore : World :=
  let met := (threePlayers.acts 1 .queueJoin).acts 2 .queueJoin
  let drafting := (met.moves 1 .ready).moves 2 .ready
  let picked := ((drafting.moves 1 .ban "NM1").moves 2 .ban "NM2").moves 1 .pick "NM3"
  (((picked.moves 1 .ready).moves 2 .ready).hears .started 1).hears .completed 1

theorem reaches_unscoredStore : Reaches anyEvent unscoredStore :=
  have hany : ∀ v e, ¬ e.ticks → anyEvent v e := fun _ _ _ => trivial
  ((((((((((reaches_threePlayers.acts 1 _ trivial).acts 2 _ trivial).moves hany 1 .ready "").moves
    hany 2 .ready "").moves hany 1 .ban "NM1").moves hany 2 .ban "NM2").moves hany 1 .pick
      "NM3").moves hany 1 .ready "").moves hany 2 .ready "").hears hany .started 1).hears hany
        .completed 1

/-- The store after the clock has settled the round. -/
def replayedStore : World :=
  (tick (.steady (seconds 46)) (unscoredStore.lockSomsai (seconds 46))).2

theorem tick_unscoredStore : tick (.steady (seconds 46)) (unscoredStore.lockSomsai (seconds 46)) =
    (.ok (), replayedStore) :=
  ok_of_isOk (by decide +kernel)

/-- The round of `unscoredStore` at its deadline. -/
theorem unscored_round : ∃ m, unscoredStore.matchRows.row 1 = some m ∧ m.ranked = true ∧
    m.stage = .results ∧ m.expired (seconds 46) = true ∧ m.NoResults unscoredStore := by
  have hrow : (unscoredStore.matchRows.row 1).map (fun m => (m.ranked, m.stage,
      m.expired (seconds 46), m.state.playedSlot.map fun slot =>
        (m.roundPlayers unscoredStore slot).all (·.missing))) =
      some (true, .results, true, some true) := by
    decide +kernel
  obtain ⟨m, hm, hround⟩ := Option.map_eq_some_iff.mp hrow
  obtain ⟨hranked, hround⟩ := Prod.mk.inj hround
  obtain ⟨hstage, hround⟩ := Prod.mk.inj hround
  obtain ⟨hexpired, hmissing⟩ := Prod.mk.inj hround
  refine ⟨m, hm, hranked, hstage, hexpired, fun slot hslot => ?_⟩
  rw [hslot] at hmissing
  exact List.all_eq_true.mp (Option.some.inj hmissing)

theorem replayed_stage : (replayedStore.matchRows.row 1).map (·.stage) = some .ready := by
  decide +kernel

/-- A ranked round without results is played again. -/
theorem no_results_replayed : Reaches anyEvent unscoredStore ∧
    ∃ m m', unscoredStore.matchRows.row 1 = some m ∧ m.ranked = true ∧ m.stage = .results ∧
      m.expired (seconds 46) = true ∧ m.NoResults unscoredStore ∧
      tick (.steady (seconds 46)) (unscoredStore.lockSomsai (seconds 46)) = (.ok (), replayedStore) ∧
      replayedStore.matchRows.row 1 = some m' ∧ m'.stage = .ready := by
  obtain ⟨m, hm, hranked, hstage, hexpired, hnone⟩ := unscored_round
  obtain ⟨m', hm', hstage'⟩ := Option.map_eq_some_iff.mp replayed_stage
  exact ⟨reaches_unscoredStore, m, m', hm, hranked, hstage, hexpired, hnone, tick_unscoredStore,
    hm', hstage'⟩

theorem no_results_void_unscored : ∃ m, unscoredStore.matchRows.row 1 = some m ∧
    m.NoResults unscoredStore ∧ ¬ m.Voided (.steady (seconds 46)) unscoredStore := by
  obtain ⟨m, hm, -, hstage, hexpired, hnone⟩ := unscored_round
  obtain ⟨v, u, m', -, -, -, hm', hvoid⟩ :=
    no_results_void reaches_unscoredStore hm hstage hexpired hnone tick_unscoredStore
  obtain ⟨m₁, hm₁, hready⟩ := Option.map_eq_some_iff.mp replayed_stage
  obtain rfl := Option.some.inj (hm'.symm.trans hm₁)
  refine ⟨m, hm, hnone, fun hvoided => ?_⟩
  rw [(hvoid.mpr hvoided).1] at hready
  simp at hready

end Soms.Somsai
