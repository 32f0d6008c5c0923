import Soms.Somsai.Draft
import Soms.Somsai.Rounds

/-!
# The draft of every match

Every change of a row keeps the draft invariant, so it holds of every match in
every reachable store.
-/

namespace Soms.Somsai

open Txn World

section Matches

open Draft

variable {clock : Prop} {ctx : Ctx} {w : World} {m m' : Match} {F : Team}

theorem Match.draft_record (m : Match) (ctx : Ctx) (slot : Slot) (winner : Option Team)
    (totals : PerTeam Nat) (players : List PlayerResult) (forfeit : Bool) (reason : String) :
    ∃ entry : HistoryEntry,
    (m.record ctx slot winner totals players forfeit reason).draft = m.draft.record entry ∧
      entry.slotId = slot.id ∧ entry.pickedByTeam = slot.selectedByTeam ∧
      entry.winnerTeamId = winner ∧ entry.forfeit = forfeit := by
  let entry : HistoryEntry :=
    { round := m.state.history.length + 1
      slotId := slot.id
      playlistItemId := m.state.playlistItemId
      teamScores := totals
      winnerTeamId := winner
      players := players
      pickedByTeam := slot.selectedByTeam
      forfeit := forfeit
      reason := reason }
  refine ⟨entry, ?_, rfl, rfl, rfl, rfl⟩
  cases winner <;> rfl

/-- The tiebreaker is neither available nor banned. -/
theorem Match.tiebreaker_kept
    (htie : m.board.fresh ∨ m.board.slots TB = some .picked ∨ m.board.slots TB = some .played)
    {slot : Slot} (hslot : m.draft.find TB = some slot) :
    slot.status ≠ .available ∧ slot.status ≠ .banned := by
  have hstatus : m.board.slots TB = some slot.status := by
    show (m.state.findSlot TB).map (·.status) = _
    rw [show m.state.findSlot TB = some slot from hslot]
    rfl
  rw [Board.fresh, hstatus] at htie
  simp only [Option.some.injEq] at htie
  rcases htie with h | h | h <;> simp [h]

/-- Before the first round nobody has won. -/
theorem Match.wins_zero (hb : m.board.Inv) (hrounds : m.state.history = []) :
    m.state.wins = ⟨0, 0⟩ := by
  have hnone : ∀ team, m.state.wins.get team = 0 := by
    intro team
    refine (hb.wins team).trans ?_
    simp [Match.board, hrounds, Board.roundsWon]
  have hred := hnone .red
  have hblue := hnone .blue
  obtain ⟨⟨red, blue⟩, hwins⟩ : ∃ p, m.state.wins = p := ⟨_, rfl⟩
  rw [hwins] at hred hblue ⊢
  simp only [PerTeam.get] at hred hblue
  rw [hred, hblue]

/-- Counting a round and going on. -/
theorem Match.Resumes.draft {slot : Slot} {winner : Option Team} {totals : PerTeam Nat}
    {players : List PlayerResult} {forfeit : Bool} {reason : String} (hb : m.board.Inv)
    (hd : m.draft.Inv F) (hslot : m.state.playedSlot = some slot)
    (hcounts : m.Counts clock ctx w slot winner totals players forfeit reason)
    (h : (m.record ctx slot winner totals players forfeit reason).Resumes ctx w slot winner forfeit
      m') : m'.draft.Inv F := by
  obtain ⟨entry, hrecord, hid, hteam, hwinner, hforfeit⟩ :=
    m.draft_record ctx slot winner totals players forfeit reason
  have hrecorded := hd.record hcounts.inRound hslot hid hteam
  rw [hwinner, hforfeit, ← hrecord] at hrecorded
  have hcounted := hb.record (Match.board_inRound hcounts.inRound) (playedSlot_some hslot).1 winner
  have hboard : (m.record ctx slot winner totals players forfeit reason).board =
      m.board.record slot.id winner := Match.board_record hslot
  rw [← hboard] at hcounted
  cases h with
  | replay hbelow hdraw _ checksum =>
    rw [decide_eq_true hdraw] at hrecorded
    exact hrecorded.replay checksum
  | tiebreak hbelow hpoint heven htie checksum =>
    rw [decide_eq_false hpoint] at hrecorded
    refine hrecorded.tiebreak htie ?_ checksum
    exact (Match.tiebreaker_kept hcounted.tiebreaker htie).2
  | next hbelow hpoint huneven =>
    rw [decide_eq_false hpoint] at hrecorded
    have hodd : m.state.bestOf % 2 = 1 := hb.odd
    have hwins : (m.record ctx slot winner totals players forfeit reason).state.wins =
        Board.addWin m.state.wins winner := by cases winner <;> rfl
    have hgets := Board.get_addWin m.state.wins winner
    have hred := hgets .red
    have hblue := hgets .blue
    simp only [PerTeam.get] at hred hblue
    simp only [MatchState.maxWins, MatchState.minWins, MatchState.target, hwins] at hbelow huneven
    rw [show (m.record ctx slot winner totals players forfeit reason).state.bestOf = m.state.bestOf
      from rfl] at hbelow huneven
    refine hrecorded.nextPick (fun htie => huneven ?_) ?_
    · -- The tiebreaker is played at an even score, and a skip leaves it even.
      have heven := hb.even (Match.board_inRound hcounts.inRound)
        (htie ▸ (playedSlot_some hslot).1)
      have hr : m.state.wins.red = m.state.bestOf / 2 := heven .red
      have hbl : m.state.wins.blue = m.state.bestOf / 2 := heven .blue
      cases winner with
      | none => simp [Board.addWin, hr, hbl]
      | some team => cases team <;> simp at hred hblue <;> omega
    · show (m.record ctx slot winner totals players forfeit reason).state.wins.red +
        (m.record ctx slot winner totals players forfeit reason).state.wins.blue + 2 ≤ m.state.bestOf
      rw [hwins]
      omega

theorem Match.Update.draft (hauto : m.auto) (hb : m.board.Inv) (hd : m.draft.Inv F)
    (h : m.Update clock ctx w m') : m'.draft.Inv F := by
  cases h with
  | answer uid ready hstage =>
    unfold Match.answer
    dsimp only
    split <;> exact hd
  | lobby | heard | scores | force => exact hd
  | start hstage =>
    have hbans : m.state.bansPerTeam ≠ 0 := Nat.ne_of_gt hd.bansPerTeam_pos
    have hstart : (m.startDraft ctx).draft =
        { m.draft with stage := .banning, turn := m.draft.next } := by
      simp [Match.startDraft, Match.touch, Match.draft, hauto.2, hbans]
    rw [hstart]
    exact hd.start hstage
  | vote hstage => exact absurd hstage hb.noVote
  | choose hstage => exact absurd hstage hb.noVote
  | ban hstage hslot hfree => exact hd.ban hstage (Match.wins_zero hb) hslot hfree
  | pick hstage hslot hfree checksum =>
    refine hd.pick hstage checksum hslot hfree fun htie => ?_
    exact (Match.tiebreaker_kept hb.tiebreaker (htie ▸ hslot)).1 hfree
  | begins hstage e => exact hd.round (by rw [show m.draft.stage = .ready from hstage]; rfl) rfl
  | completes hstage e => exact hd.round (by rw [show m.draft.stage = .playing from hstage]; rfl) rfl
  | count hslot hcounts hresumes => exact hresumes.draft hb hd hslot hcounts

/-- Every change of a row keeps the draft invariant. -/
theorem RowChange.draft {k : MatchId} (hauto : m.auto) (hb : m.board.Inv) (hd : m.draft.Inv F)
    (h : RowChange clock ctx k (some m) (some m')) : m'.draft.Inv F := by
  cases h with
  | same => exact hd
  | update w hupdate => exact hupdate.draft hauto hb hd
  | ends hlive hending changes => exact hd.close (final_finalStage _)
  | @concludes _ w slot winner totals players forfeit reason hslot hcounts champion cancelled why =>
    obtain ⟨entry, hrecord, hid, hteam, -, -⟩ :=
      m.draft_record ctx slot winner totals players forfeit reason
    have hrecorded := (hd.record hcounts.inRound hslot hid hteam)
    have hfinal := final_finalStage cancelled
    have hclosed := hrecorded.close hfinal
    rw [← hrecord] at hclosed
    exact hclosed
  | seat => exact hd

/-- A new match has not been drafted. -/
theorem newMatch_draft {k : MatchId} {setup : Setup} {pool : Pool} {rating : ℚ} {room : RoomId}
    (hpool : pool.WellFormed) :
    (newMatch ctx k setup pool rating room).draft.Inv (ctx.firstTeam k) := by
  have hids : (initialSlots pool.slots).map (·.id) = pool.slots.map (·.id) := by
    simp [initialSlots]
  have hbanned : (initialSlots pool.slots).countP (fun slot => decide (slot.status = .banned)) = 0 := by
    rw [List.countP_eq_zero]
    intro slot hslot
    obtain ⟨old, -, rfl⟩ := List.mem_map.mp hslot
    dsimp only
    split <;> simp
  have hused : (initialSlots pool.slots).countP Slot.used = 0 := by
    rw [List.countP_eq_zero]
    intro slot hslot
    obtain ⟨old, -, rfl⟩ := List.mem_map.mp hslot
    by_cases htie : old.id = "TB" <;> simp [Slot.used, TB, htie]
  exact {
    slots_eq := hids.trans hpool.slots_eq
    bestOf_eq := hpool.bestOf_eq
    bansPerTeam_eq := hpool.bansPerTeam_eq
    order := rfl
    bans := by intro team; cases team <;> rfl
    marked := hbanned
    limit := Nat.zero_le _
    spent := by simp [Match.draft, newMatch, newState]
    waiting := fun _ => ⟨rfl, rfl, rfl, rfl⟩
    banning := by simp [Match.draft, newMatch]
    picking := by simp [Match.draft, newMatch]
    inRound := by simp [Match.draft, newMatch, Stage.inRound]
    done := by simp [Match.draft, newMatch, newState, picks, counted, ongoing, Stage.inRound]
    chain := .nil
    first := by simp [Match.draft, newMatch, newState, picks, counted, ongoing, Stage.inRound]
    used := fun _ => by
      rw [show (newMatch ctx k setup pool rating room).draft.slots = initialSlots pool.slots from rfl,
        hused]
      exact Nat.zero_le _ }

/-- The draft invariant holds of every match in every reachable store. -/
theorem Reaches.draft {P : World → Event → Prop} (h : Reaches P w) {k : MatchId}
    (hrow : w.matchRows.row k = some m) : ∃ F, m.draft.Inv F := by
  have hall : m.auto ∧ m.board.Inv ∧ ∃ F, m.draft.Inv F := by
    refine h.rows (fun m => m.auto ∧ m.board.Inv ∧ ∃ F, m.draft.Inv F) (fun _ ctx k m hopen => ?_)
      (fun _ ctx k m m' hchange hm => ?_) hrow
    · cases hopen with
      | opens setup rating room hpool =>
        obtain ⟨hauto, hboard⟩ := newMatch_board hpool
        exact ⟨hauto, hboard, _, newMatch_draft hpool⟩
    · obtain ⟨hauto, hboard, F, hdraft⟩ := hm
      obtain ⟨_, ⟨⟩, rfl | hturn⟩ := hchange.turn
      · exact ⟨hauto, hboard, F, hdraft⟩
      · obtain ⟨hauto', hstep⟩ := hturn.board hauto
        refine ⟨hauto', ?_, F, hchange.draft hauto hboard hdraft⟩
        rcases hstep with heq | hstep
        · rw [heq]
          exact hboard
        · exact hstep.inv hboard
  exact hall.2.2

end Matches

/-- In every reachable store the pool of a match follows its rule; bans alternate
between the teams, so that they are shared evenly within their limit, and the
banned slots are the bans of both; the team that banned first picks first; picks
alternate, a replay staying with its team; and while the match is in picking and
no round was skipped without a winner, some slot is available. -/
theorem draft_accounting {P : World → Event → Prop} {w : World} (h : Reaches P w) {k : MatchId}
    {m : Match} (hrow : w.matchRows.row k = some m) :
    (m.state.slots.map (·.id) = (ruleFor m.state.poolRank).slots ∧
      m.state.bestOf = (ruleFor m.state.poolRank).bestOf ∧
      m.state.bansPerTeam = (ruleFor m.state.poolRank).bansPerTeam) ∧
    (m.state.draftHistory.map (·.teamId)).IsChain (fun team next => next = team.other) ∧
    (∀ team, m.state.bans.get team = (m.state.draftHistory.map (·.teamId)).count team) ∧
    (m.state.bans.red ≤ m.state.bans.blue + 1 ∧ m.state.bans.blue ≤ m.state.bans.red + 1) ∧
    (∀ team, m.state.bans.get team ≤ m.state.bansPerTeam) ∧
    (m.state.slots.filter fun slot => slot.status = .banned).length =
      m.state.bans.red + m.state.bans.blue ∧
    (∀ pick ∈ m.draft.picks.head?, ∃ ban ∈ m.state.draftHistory.head?,
      pick.team = some ban.teamId) ∧
    m.draft.picks.IsChain Draft.Follows ∧
    (m.stage = .picking →
      (∀ entry ∈ m.state.history, ¬ (entry.winnerTeamId = none ∧ entry.forfeit = true)) →
      m.state.availableSlots ≠ []) := by
  obtain ⟨F, hdraft⟩ := h.draft hrow
  obtain ⟨hred, hblue, hlimit, hlength⟩ := hdraft.bans_even
  refine ⟨⟨hdraft.slots_eq, hdraft.bestOf_eq, hdraft.bansPerTeam_eq⟩, ?_, fun team => ?_,
    ⟨hred, hblue⟩, hlimit, ?_, fun pick hpick => hdraft.first_pick hpick, hdraft.chain,
    fun hstage hskips => ?_⟩
  · have horder : m.state.draftHistory.map (·.teamId) = _ := hdraft.order
    rw [horder]
    exact isChain_iterate F _
  · have horder : m.state.draftHistory.map (·.teamId) = _ := hdraft.order
    rw [horder]
    exact hdraft.bans team
  · rw [← List.countP_eq_length_filter]
    exact hdraft.marked.trans hlength
  · have hnone : m.draft.skips = 0 := by
      rw [Draft.skips, List.countP_eq_zero]
      intro entry hentry
      simpa using hskips entry hentry
    have hpos := hdraft.available hstage hnone
    rw [List.countP_eq_length_filter] at hpos
    exact List.ne_nil_of_length_pos hpos

/-- In a duel both captains banned once, and the aborted round was picked by the
team that banned first. -/
theorem draft_accounting_aborted : ∃ m, abortedStore.matchRows.row 1 = some m ∧
    m.state.bans = ⟨1, 1⟩ ∧ m.draft.picks = [⟨"NM3", some .red⟩] ∧
      ∀ pick ∈ m.draft.picks.head?, ∃ ban ∈ m.state.draftHistory.head?,
        pick.team = some ban.teamId := by
  have hrow : (abortedStore.matchRows.row 1).map (fun m => (m.state.bans, m.draft.picks)) =
      some (⟨1, 1⟩, [⟨"NM3", some .red⟩]) := by
    decide +kernel
  obtain ⟨m, hm, hpicks⟩ := Option.map_eq_some_iff.mp hrow
  obtain ⟨hbans, hpicks⟩ := Prod.mk.inj hpicks
  exact ⟨m, hm, hbans, hpicks, (draft_accounting reaches_abortedStore hm).2.2.2.2.2.2.1⟩

end Soms.Somsai
