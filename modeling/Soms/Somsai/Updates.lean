import Soms.Somsai.Machine

/-!
# What happens to the row of a match

Said once for all bodies: which updates a live row may undergo, how a round is
counted, and for which reasons a match ends, each with the checks that were made
before it.  The invariants of a match are derived from these lists.
-/

namespace Soms.Somsai

namespace Match

/-- The results of a round on the slot. -/
def roundPlayers (w : World) (m : Match) (slot : Slot) : List PlayerResult :=
  (membersOf m).map (playerResult m (roundScores w m slot))

/-- The team totals of a round on the slot. -/
def roundTotals (w : World) (m : Match) (slot : Slot) : PerTeam Nat :=
  teamTotals m.state.teams (m.roundPlayers w slot)

/-- Every member has a counting score on the slot. -/
def allSubmitted (w : World) (m : Match) (slot : Slot) : Bool :=
  sameMembers
    ((roundScores w m slot).map (·.userId) ++ m.state.botScores.map (·.userId)) (membersOf m)

/-- The rounds without a winner. -/
def undecided (m : Match) : Nat :=
  (m.state.history.filter fun entry => entry.winnerTeamId = none).length

/-- How the round on a slot is counted: its winner, totals and players, whether it
was forfeited, and the reason.  Only the clock settles the scores of a round. -/
inductive Counts (clock : Prop) (ctx : Ctx) (w : World) (m : Match) (slot : Slot) :
    Option Team → PerTeam Nat → List PlayerResult → Bool → String → Prop
  | settled (hclock : clock) (hstage : m.stage = .results)
      (hdone : m.expired ctx.now = true ∨ m.allSubmitted w slot = true) :
      Counts clock ctx w m slot (roundWinner (m.roundTotals w slot)) (m.roundTotals w slot)
        (m.roundPlayers w slot) false ""
  | aborted (hround : m.stage.inRound = true) :
      Counts clock ctx w m slot none ⟨0, 0⟩ [] true
        ("The game server could not start the beatmap. " ++
          "The round was skipped without points.")
  | missed (hstage : m.stage = .ready) (hexpired : m.expired ctx.now = true)
      (hmissing : missingTeams m ≠ [] ∨ m.state.forceStart = true) :
      Counts clock ctx w m slot (soleOpponent (missingTeams m)) ⟨0, 0⟩ [] true
        (missedReason m (missingTeams m))

/-- How a match ends with the round just counted: its champion, whether it is
cancelled, and the reason. -/
inductive Concludes (m : Match) (winner : Option Team) (forfeit : Bool) :
    Option Team → Bool → String → Prop
  | won (htarget : m.state.target ≤ m.state.maxWins) : Concludes m winner forfeit winner false ""
  | draws (hbelow : m.state.maxWins < m.state.target) (hdraw : winner = none ∧ forfeit = false)
      (hthree : 3 ≤ m.undecided) :
      Concludes m winner forfeit none false "Three draws: the match ended in a draw."
  | gone (hbelow : m.state.maxWins < m.state.target)
      (hopen : winner = none ∧ forfeit = false → m.undecided < 3) :
      Concludes m winner forfeit none true
        ("A pool beatmap is no longer available. " ++
          "The match was cancelled without a rating change.")

/-- How a match goes on after the round just counted on a slot. -/
inductive Resumes (ctx : Ctx) (w : World) (m : Match) (slot : Slot) (winner : Option Team)
    (forfeit : Bool) : Match → Prop
  | replay (hbelow : m.state.maxWins < m.state.target) (hdraw : winner = none ∧ forfeit = false)
      (hfew : m.undecided < 3) (checksum : String) :
      Resumes ctx w m slot winner forfeit (m.select ctx slot.id checksum)
  | tiebreak (hbelow : m.state.maxWins < m.state.target)
      (hpoint : ¬ (winner = none ∧ forfeit = false)) (heven : m.state.minWins = m.state.bestOf / 2)
      {tie : Slot} (htie : m.state.findSlot "TB" = some tie) (checksum : String) :
      Resumes ctx w m slot winner forfeit (m.select ctx "TB" checksum)
  | next (hbelow : m.state.maxWins < m.state.target) (hpoint : ¬ (winner = none ∧ forfeit = false))
      (huneven : m.state.minWins ≠ m.state.bestOf / 2) :
      Resumes ctx w m slot winner forfeit (m.nextPick ctx)

/-- Why a match ends outside a counted round: its champion, whether it is
cancelled, and the reason. -/
inductive Ending (ctx : Ctx) (m : Match) : Option Team → Bool → String → Prop
  | left {uid : UserId} (hmember : uid ∈ membersOf m) :
      Ending ctx m (some (teamOf m.state.teams uid).other) (decide (m.stage = .waiting))
        "A player left the match."
  | declined (hranked : m.ranked = true) (hstage : m.stage = .waiting) :
      Ending ctx m none true "A player declined the ready check."
  | unaccepted (hstage : m.stage = .waiting) (hexpired : m.expired ctx.now = true) :
      Ending ctx m none true "Not all players accepted the match."
  | lost (hstage : m.stage ≠ .waiting) (hseen : m.state.serverSeenAt < ctx.now - seconds 90) :
      Ending ctx m none true "Connection to the game server was lost. Rating was not changed."
  | offline (hoffline : offlineTeams ctx.now m ≠ []) :
      Ending ctx m (soleOpponent (offlineTeams ctx.now m))
        (decide ((offlineTeams ctx.now m).length = 2)) "The reconnection period expired."
  | exhausted (hstage : m.stage = .banning ∨ m.stage = .picking)
      (hslots : m.state.availableSlots = []) :
      Ending ctx m none true "The pool has no available beatmaps left."
  | gone (hstage : m.stage = .picking) :
      Ending ctx m none true
        ("A pool beatmap is no longer available. " ++
          "The match was cancelled without a rating change.")
  | timeout (hstage : m.stage = .playing) (hexpired : m.expired ctx.now = true) :
      Ending ctx m none true "The match did not finish in time. Rating was not changed."

/-- The row when the round begins. -/
def begins (m : Match) (ctx : Ctx) (e : RoomEvent) : Match :=
  m.touch ctx
    { heartbeat ctx m e with
      roundStartedAt := some ctx.now
      deadline := some (ctx.deadline 1800) } (some .playing)

/-- The row when the round is played. -/
def completes (m : Match) (ctx : Ctx) (e : RoomEvent) : Match :=
  m.touch ctx
    { heartbeat ctx m e with
      resultsNotified := true
      deadline := some (ctx.deadline RESULT_SECONDS) } (some .results)

/-- The row with the chosen pool of a vote. -/
def choosePool (m : Match) (ctx : Ctx) (chosen : Nat) (candidate : PoolCandidate) : Match :=
  let state := { m.state with
    poolSelected := true
    slots := candidate.slots
    bestOf := candidate.bestOf
    bansPerTeam := candidate.bansPerTeam }
  ({ m with poolId := chosen }.touch ctx state).startDraft ctx

/-- One update of a live row that leaves it live. -/
inductive Update (clock : Prop) (ctx : Ctx) (w : World) (m : Match) : Match → Prop
  | answer (uid : UserId) (ready : Bool) (hstage : m.stage = .waiting ∨ m.stage = .ready) :
      Update clock ctx w m (m.answer ctx uid ready)
  | lobby (hranked : m.ranked = false) (hstage : m.stage = .waiting)
      (privateLobby arbitrary : Bool) : Update clock ctx w m (m.lobby ctx privateLobby arbitrary)
  | start (hstage : m.stage = .waiting)
      (hready : if m.ranked then sameMembers m.state.accepted (membersOf m) = true
        else m.filled = true) : Update clock ctx w m (m.startDraft ctx)
  | vote (hstage : m.stage = .poolSelect) (uid : UserId) (chosen : Nat) :
      Update clock ctx w m (m.vote ctx uid chosen)
  | choose (hstage : m.stage = .poolSelect) (chosen : Nat) {candidate : PoolCandidate}
      (hcandidate : candidate ∈ m.state.poolCandidates) :
      Update clock ctx w m (m.choosePool ctx chosen candidate)
  | ban (hstage : m.stage = .banning) {slotId : String} {slot : Slot}
      (hslot : m.state.findSlot slotId = some slot) (hfree : slot.status = .available) :
      Update clock ctx w m (m.ban ctx slotId)
  | pick (hstage : m.stage = .picking) {slotId : String} {slot : Slot}
      (hslot : m.state.findSlot slotId = some slot) (hfree : slot.status = .available)
      (checksum : String) : Update clock ctx w m (m.select ctx slotId checksum)
  | heard (hlive : m.stage.final = false) (e : RoomEvent) :
      Update clock ctx w m { m with state := heartbeat ctx m e }
  | begins (hstage : m.stage = .ready) (e : RoomEvent)
      (hready : m.startable e (heartbeat ctx m e) = true) : Update clock ctx w m (m.begins ctx e)
  | completes (hstage : m.stage = .playing) (e : RoomEvent) : Update clock ctx w m (m.completes ctx e)
  | scores (hranked : m.ranked = false) (hstage : m.stage = .playing ∨ m.stage = .results)
      (scores : List BotScore) :
      Update clock ctx w m { m with state := { m.state with botScores := scores } }
  | force (hstage : m.stage = .ready) (hexpired : m.expired ctx.now = true)
      (hmissing : missingTeams m = []) (hunforced : m.state.forceStart = false) :
      Update clock ctx w m (m.touch ctx
        { m.state with forceStart := true, deadline := some (ctx.deadline 30) })
  | count {slot : Slot} {winner : Option Team} {totals : PerTeam Nat} {players : List PlayerResult}
      {forfeit : Bool} {reason : String} {m' : Match} (hslot : m.state.playedSlot = some slot)
      (hcounts : m.Counts clock ctx w slot winner totals players forfeit reason)
      (hresumes : (m.record ctx slot winner totals players forfeit reason).Resumes ctx w slot
        winner forfeit m') : Update clock ctx w m m'

variable {clock : Prop} {ctx : Ctx} {w : World} {m m' : Match} {slot : Slot} {winner : Option Team}
  {totals : PerTeam Nat} {players : List PlayerResult} {forfeit : Bool} {reason : String}

/-- Rounds are counted in the stages in which they are played. -/
theorem Counts.inRound (h : m.Counts clock ctx w slot winner totals players forfeit reason) :
    m.stage.inRound = true := by
  cases h with
  | settled _ hstage => rw [hstage]; rfl
  | aborted hround => exact hround
  | missed hstage => rw [hstage]; rfl

theorem Counts.live (h : m.Counts clock ctx w slot winner totals players forfeit reason) :
    m.stage.final = false :=
  inRound_live h.inRound

/-- A settled round is forfeited by nobody, and the others are. -/
theorem Counts.forfeit_eq (h : m.Counts clock ctx w slot winner totals players forfeit reason) :
    (forfeit = false ∧ m.stage = .results) ∨ forfeit = true := by
  cases h with
  | settled _ hstage => exact .inl ⟨rfl, hstage⟩
  | aborted => exact .inr rfl
  | missed => exact .inr rfl

/-- The board counts the round when the row does. -/
theorem board_count (hslot : m.state.playedSlot = some slot)
    (hcounts : m.Counts clock ctx w slot winner totals players forfeit reason) {b : Board}
    (hafter : Board.After (m.record ctx slot winner totals players forfeit reason).board slot.id
      winner b) : Board.Step m.board b := by
  rw [board_record hslot] at hafter
  exact .count (board_inRound hcounts.inRound) slot.id (playedSlot_some hslot).1 winner hafter

theorem Concludes.after {champion : Option Team} {cancelled : Bool} {why : String}
    (h : m.Concludes winner forfeit champion cancelled why) (slotId : String) :
    Board.After m.board slotId winner
      (m.board.close (if cancelled then .cancelled else .ended) champion) := by
  cases h with
  | won htarget => exact .decided htarget
  | draws hbelow =>
    have hboard : m.board.maxWins < m.board.target := hbelow
    exact .closed hboard .ended rfl none
  | gone hbelow =>
    have hboard : m.board.maxWins < m.board.target := hbelow
    exact .closed hboard .cancelled rfl none

theorem Resumes.after (h : m.Resumes ctx w slot winner forfeit m')
    (hslot : (m.state.findSlot slot.id).isSome = true) :
    Board.After m.board slot.id winner m'.board := by
  cases h with
  | replay hbelow hdraw _ checksum =>
    obtain ⟨found, hfound⟩ := Option.isSome_iff_exists.mp hslot
    rw [board_select ctx hfound]
    exact .replay hbelow hdraw.1
  | tiebreak hbelow _ heven htie checksum =>
    rw [board_select ctx htie]
    exact .tiebreak hbelow heven
  | next hbelow =>
    rw [board_nextPick]
    exact .next hbelow

/-- Changing a slot keeps its id findable. -/
theorem findSlot_record (hslot : m.state.playedSlot = some slot) :
    ((m.record ctx slot winner totals players forfeit reason).state.findSlot slot.id).isSome =
      true := by
  have h := find_modifySlot (f := fun slot => { slot with status := .played }) (fun _ => rfl)
    slot.id slot.id m.state.slots
  have hfound : m.state.slots.find? (fun s => s.id = slot.id) = some slot :=
    (playedSlot_some hslot).2
  rw [if_pos rfl, hfound] at h
  exact Option.isSome_of_eq_some h

theorem Resumes.seats (h : m.Resumes ctx w slot winner forfeit m') :
    m'.seats = m.seats ∧ m'.stage.final = false ∧ (m.auto → m'.auto) := by
  cases h <;> exact ⟨rfl, rfl, id⟩

/-- Every update moves the board along and leaves the seats alone. -/
theorem Update.move (h : m.Update clock ctx w m') : m.Move m' := by
  cases h with
  | answer uid ready hstage =>
    have hlive : m.stage.final = false := by rcases hstage with h | h <;> rw [h] <;> rfl
    unfold Match.answer
    dsimp only
    split <;> exact .talk hlive rfl rfl ⟨rfl, rfl⟩
  | lobby _ hstage => exact .talk (by rw [hstage]; rfl) rfl rfl ⟨rfl, rfl⟩
  | start hstage => exact .start hstage
  | vote hstage => exact .talk (by rw [hstage]; rfl) rfl rfl ⟨rfl, rfl⟩
  | choose hstage chosen hcandidate =>
    refine ⟨by rw [hstage]; rfl, live_startDraft, seats_startDraft, fun hauto => ?_⟩
    rw [hauto.1] at hcandidate
    simp at hcandidate
  | ban hstage hslot hfree => exact .ban hstage hslot hfree
  | pick hstage hslot hfree checksum => exact .pick hstage hslot hfree
  | heard hlive e => exact .talk hlive rfl rfl ⟨rfl, rfl⟩
  | begins hstage e =>
    exact ⟨by rw [hstage]; rfl, rfl, rfl, fun ha => ⟨ha, .inr (.begin hstage)⟩⟩
  | completes hstage e =>
    exact ⟨by rw [hstage]; rfl, rfl, rfl, fun ha => ⟨ha, .inr (.complete hstage)⟩⟩
  | scores _ hstage scores =>
    exact .talk (by rcases hstage with h | h <;> rw [h] <;> rfl) rfl rfl ⟨rfl, rfl⟩
  | force hstage => exact .talk (by rw [hstage]; rfl) rfl rfl ⟨rfl, rfl⟩
  | count hslot hcounts hresumes =>
    obtain ⟨hseats, hlive', hauto⟩ := hresumes.seats
    exact ⟨hcounts.live, hlive', hseats, fun ha =>
      ⟨hauto ha, .inr (board_count hslot hcounts (hresumes.after (findSlot_record hslot)))⟩⟩

theorem Update.live (h : m.Update clock ctx w m') : m.stage.final = false := h.move.live

theorem stage_startDraft : (m.startDraft ctx).stage ≠ .waiting := by
  unfold startDraft
  dsimp only
  split
  · simp only [touch, Option.getD_some]
    split <;> simp
  · simp [touch]

/-- A match that still waits has waited before, and was answered, opened otherwise or
heard of. -/
theorem Update.waiting (h : m.Update clock ctx w m') (hwaiting : m'.stage = .waiting) :
    m.stage = .waiting ∧ ((∃ uid ready, m' = m.answer ctx uid ready) ∨
      (∃ privateLobby arbitrary, m' = m.lobby ctx privateLobby arbitrary) ∨
      ∃ e, m' = { m with state := heartbeat ctx m e }) := by
  cases h with
  | answer uid ready =>
    refine ⟨?_, .inl ⟨uid, ready, rfl⟩⟩
    unfold Match.answer at hwaiting
    dsimp only at hwaiting
    split at hwaiting <;> exact hwaiting
  | lobby _ _ privateLobby arbitrary => exact ⟨hwaiting, .inr (.inl ⟨_, _, rfl⟩)⟩
  | heard _ e => exact ⟨hwaiting, .inr (.inr ⟨e, rfl⟩)⟩
  | start | choose => exact absurd hwaiting stage_startDraft
  | vote hstage => exact absurd (hstage.symm.trans hwaiting) (by simp)
  | ban hstage =>
    simp only [Match.ban, touch, Option.getD_some] at hwaiting
    split at hwaiting <;> simp at hwaiting
  | pick => simp [Match.select, touch] at hwaiting
  | begins => simp [Match.begins, touch] at hwaiting
  | completes => simp [Match.completes, touch] at hwaiting
  | scores _ hstage => rcases hstage with h | h <;> exact absurd (h.symm.trans hwaiting) (by simp)
  | force hstage => exact absurd (hstage.symm.trans hwaiting) (by simp)
  | count hslot hcounts hresumes => cases hresumes <;> simp [select, nextPick, touch] at hwaiting

end Match

end Soms.Somsai
