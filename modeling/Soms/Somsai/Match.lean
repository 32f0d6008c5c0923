import Soms.Somsai.Dodge
import Soms.Somsai.Pool
import Soms.Somsai.Rating

/-!
# The tournament state machine

`somsai_match_service.py`.  A match is a row of the match table; a body takes its
key and reads the row, as the session's identity map does.  An update of the row
alone is a function `Match → Match`.
-/

namespace Soms.Somsai

open Txn

def PICK_SECONDS : Int := 60
def READY_SECONDS : Int := 120
def RESULT_SECONDS : Int := 45
def MATCH_ACCEPT_SECONDS : Int := 60

/-- `set(a) == set(b)`. -/
def sameMembers (a b : List UserId) : Bool := a.all (· ∈ b) && b.all (· ∈ a)

/-- `sorted(set(l))`. -/
def sortedSet (l : List UserId) : List UserId := l.dedup.insertionSort (· ≤ ·)

/-- Change the first slot with the given id. -/
def modifySlot (slotId : String) (f : Slot → Slot) : List Slot → List Slot
  | [] => []
  | slot :: rest =>
    if slot.id = slotId then f slot :: rest else slot :: modifySlot slotId f rest

namespace MatchState

/-- `find_slot`. -/
def findSlot (state : MatchState) (slotId : String) : Option Slot :=
  state.slots.find? fun slot => slot.id = slotId

/-- The slot being played. -/
def playedSlot (state : MatchState) : Option Slot := state.currentSlot.bind state.findSlot

/-- `(best_of + 1) // 2`. -/
def target (state : MatchState) : Nat := (state.bestOf + 1) / 2

/-- `max(state["wins"])`. -/
def maxWins (state : MatchState) : Nat := max state.wins.red state.wins.blue

/-- `min(state["wins"])`. -/
def minWins (state : MatchState) : Nat := min state.wins.red state.wins.blue

/-- The slots that a captain may still ban or pick. -/
def availableSlots (state : MatchState) : List Slot :=
  state.slots.filter fun slot => slot.status = .available

/-- `any(bot["user_id"] == uid for bot in state["bots"])`. -/
def isBot (state : MatchState) (uid : UserId) : Bool :=
  state.bots.any fun bot => bot.userId = uid

end MatchState

/-- `touch`, which keeps the stage when none is given. -/
def Match.touch (m : Match) (ctx : Ctx) (state : MatchState) (stage : Option Stage := none) :
    Match :=
  { m with state := state, stage := stage.getD m.stage, revision := m.revision + 1,
           updatedAt := ctx.now }

/-- Store the row of an existing match. -/
def World.putMatch (k : MatchId) (m : Match) (w : World) : World :=
  { w with matchRows := w.matchRows.modify k fun _ => m }

/-- The row of a match. -/
def getMatch (k : MatchId) : Act Match :=
  require (fun w => w.matchRows.row k) (reject "Match not found." 404)

/-! ## Ready checks -/

/-- `penalise_unaccepted`. -/
def penaliseUnaccepted (ctx : Ctx) (k : MatchId) (m : Match) (userIds : List UserId) : Act Unit :=
  userIds.forM fun uid =>
    when (decide (uid ∈ membersOf m)) do
      let event : Int := -((k * 100 + (membersOf m).idxOf uid + 1 : Nat) : Int)
      let _ ← registerDodge ctx.now event uid none true
      pure ()

/-! ## Creation -/

/-- The arguments of `create_match`. -/
structure Setup where
  teams : PerTeam (List UserId)
  format : Format
  rulesetId : RulesetId
  variantId : Nat
  reservations : List ReservationId
  ranked : Bool := true
  ownerId : Option UserId := none
  poolId : Option Nat := none
  targetMmr : Option Int := none
  targetRank : Option Rank := none
  bots : List Bot := []
  deriving DecidableEq, Repr

namespace Setup

def members (setup : Setup) : List UserId := setup.teams.red ++ setup.teams.blue

/-- The members whose ratings decide the pool. -/
def humans (setup : Setup) : List UserId :=
  setup.members.filter fun uid => !(setup.bots.any fun bot => bot.userId = uid)

/-- Custom matches go by the 2v2 rating. -/
def ratingFormat (setup : Setup) : Format := if setup.ranked then setup.format else .two

def ratingKey (setup : Setup) (uid : UserId) : RatingKey :=
  { userId := uid, rulesetId := setup.rulesetId, variantId := setup.variantId,
    format := setup.ratingFormat }

/-- `match_rating`. -/
def matchRating (setup : Setup) (ratings : List ℚ) : ℚ :=
  match setup.targetMmr with
  | some mmr => if setup.ranked then mean ratings else mmr
  | none => mean ratings

/-- `pool_rank`. -/
def poolRank (setup : Setup) (ratings : List ℚ) : Rank :=
  if setup.ranked then averageRank ratings
  else setup.targetRank.getD (rankFromRating (setup.matchRating ratings))

end Setup

/-- The slots of a new match: every slot starts available but the tiebreaker. -/
def initialSlots (slots : List Slot) : List Slot :=
  slots.map fun slot =>
    { slot with status := if slot.id = "TB" then .tiebreaker else .available }

/-- The state of a new match. -/
def newState (ctx : Ctx) (k : MatchId) (setup : Setup) (pool : Pool) (rating : ℚ) : MatchState :=
  { teams := setup.teams
    bots := setup.bots
    botScores := []
    captains := setup.teams.map List.head?
    wins := ⟨0, 0⟩
    slots := initialSlots pool.slots
    bestOf := pool.bestOf
    bansPerTeam := pool.bansPerTeam
    poolCandidates := []
    poolVotes := []
    poolSelected := true
    matchRating := roundHalfEven rating
    poolRank := pool.poolRank
    accepted := []
    ready := []
    bans := ⟨0, 0⟩
    turnTeam := ctx.firstTeam k
    nextPickTeam := ctx.firstTeam k
    deadline := some (ctx.deadline (if setup.ranked then MATCH_ACCEPT_SECONDS else 1800))
    privateLobby := false
    arbitrary := false
    history := []
    draftHistory := []
    reservations := setup.reservations
    currentSlot := none
    playlistItemId := 0
    settled := false
    winnerTeamId := none
    offline := []
    connected := []
    available := none
    serverSeenAt := ctx.now
    resultsNotified := false
    forceStart := false
    roundStartedAt := none
    reason := ""
    ratingChanges := []
    impacts := [] }

/-- The row of a new match. -/
def newMatch (ctx : Ctx) (k : MatchId) (setup : Setup) (pool : Pool) (rating : ℚ) (room : RoomId) :
    Match :=
  { format := setup.format
    rulesetId := setup.rulesetId
    variantId := setup.variantId
    ranked := setup.ranked
    ownerId := setup.ownerId.getD (setup.teams.red.headD 0)
    poolId := 0
    roomId := room
    stage := .waiting
    revision := 1
    state := newState ctx k setup pool rating
    updatedAt := ctx.now
    endedAt := none }

namespace World

/-- The room, the match row and the first playlist item of a new match. -/
def addMatch (ctx : Ctx) (setup : Setup) (pool : Pool) (rating : ℚ) (w : World) : World :=
  let m := newMatch ctx w.matchRows.next setup pool rating w.nextRoom
  let items := m.state.slots.head?.toList.map fun slot =>
    { roomId := w.nextRoom, id := 0, beatmapId := slot.beatmapId, rulesetId := setup.rulesetId,
      requiredMods := slot.mods, allowedMods := [] : PlaylistItem }
  { w with
    matchRows := w.matchRows.insert m
    nextRoom := w.nextRoom + 1
    playlists := w.playlists ++ items }

/-- Point the members' activity rows at the match. -/
def pointAt (ctx : Ctx) (k : MatchId) (members : List UserId) (w : World) : World :=
  members.foldl (fun w uid => w.setMatch ctx.now uid (some k)) w

end World

/-- `create_match`. -/
def createMatch (ctx : Ctx) (setup : Setup) : Act MatchId := do
  refuse (fun _ => setup.bots ≠ [] ∧ setup.ranked = true)
    (reject "Bots are available only in custom matches." 422)
  write fun w => w.ensureRatings (setup.humans.map setup.ratingKey)
  let ratings ← read fun w =>
    setup.humans.map fun uid => ((w.ratingRow (setup.ratingKey uid)).rating : ℚ)
  refuse (fun _ => ratings = []) (.other "ZeroDivisionError")
  refuse (fun _ => setup.poolId.isSome)
    (reject ("Selecting an individual tournament pool is no longer available. " ++
      "Use the automatic pool.") 422)
  let k ← read fun w => w.matchRows.next
  let pool ← attempt fun w =>
    mixedPool ctx k w.env.warehouse setup.rulesetId setup.variantId (setup.matchRating ratings)
      (some (setup.poolRank ratings))
  write (World.addMatch ctx setup pool (setup.matchRating ratings))
  write (World.pointAt ctx k setup.members)
  pure k

/-! ## The end of a match -/

/-- The row with its result, before ratings are settled. -/
def Match.closed (m : Match) (ctx : Ctx) (winner : Option Team) (cancelled : Bool)
    (reason : String) : Match :=
  let state :=
    { m.state with winnerTeamId := winner, reason := reason, deadline := none, settled := true }
  { m.touch ctx state (some (if cancelled then .cancelled else .ended)) with
    endedAt := some ctx.now }

/-- The closed row with the rating changes and impacts. -/
def Match.withRatings (m : Match) (winner : Option Team) (changes : List RatingChange) : Match :=
  { m with state := { m.state with
      ratingChanges := changes
      impacts := performanceImpacts m.state.teams m.state.history winner } }

/-- Ratings are settled for a ranked match that was not cancelled. -/
def World.settle (ctx : Ctx) (w : World) (k : MatchId) (m : Match) (winner : Option Team)
    (cancelled : Bool) : World × List RatingChange :=
  if m.ranked && !cancelled then w.settleRatings ctx k m winner else (w, [])

/-- `finish_match`. -/
def World.finishMatch (ctx : Ctx) (k : MatchId) (winner : Option Team) (cancelled : Bool)
    (reason : String) (w : World) : World :=
  match w.matchRows.row k with
  | none => w
  | some m =>
    if m.stage.final then w
    else
      let closed := m.closed ctx winner cancelled reason
      let settled := w.settle ctx k closed winner cancelled
      let w := settled.1.putMatch k (closed.withRatings winner settled.2)
      let w := m.state.reservations.foldl (World.releaseReservation ctx.now) w
      -- A last-match pointer lets the client show the final results.
      w.pointAt ctx k (membersOf m)

/-! ## Drafting -/

/-- `start_draft`. -/
def Match.startDraft (m : Match) (ctx : Ctx) : Match :=
  let state := { m.state with
    serverSeenAt := if m.stage = Stage.waiting then ctx.now else m.state.serverSeenAt
    deadline := some (ctx.deadline PICK_SECONDS) }
  if state.poolSelected then
    m.touch ctx { state with turnTeam := state.nextPickTeam }
      (some (if state.bansPerTeam ≠ 0 then .banning else .picking))
  else m.touch ctx state (some .poolSelect)

/-- `finish_pool_vote`. -/
def finishPoolVote (ctx : Ctx) (k : MatchId) : Act Unit := do
  let m ← getMatch k
  let votes := m.state.poolVotes.map Prod.snd
  let options := if votes = [] then m.state.poolCandidates.map (·.id) else votes
  let chosen ← require (fun _ => ctx.choice k "pool" options) (.other "IndexError")
  let candidate ← require (fun _ => m.state.poolCandidates.find? fun c => c.id = chosen)
    (.other "StopIteration")
  let state := { m.state with
    poolSelected := true
    slots := candidate.slots
    bestOf := candidate.bestOf
    bansPerTeam := candidate.bansPerTeam }
  write (World.putMatch k (({ m with poolId := chosen }.touch ctx state).startDraft ctx))

/-- The slot with the chosen map, in the revision the server has now. -/
def Slot.picked (slot : Slot) (checksum : String) (team : Option Team) : Slot :=
  { slot with checksum := checksum, status := .picked, selectedByTeam := team }

/-- The row when a map is selected. -/
def Match.select (m : Match) (ctx : Ctx) (slotId : String) (checksum : String) : Match :=
  let team := if slotId = "TB" then none else some m.state.turnTeam
  let state := { m.state with
    slots := modifySlot slotId (fun slot => slot.picked checksum team) m.state.slots
    currentSlot := some slotId
    playlistItemId := m.state.playlistItemId + 1
    ready := m.state.bots.map (·.userId)
    available := some []
    forceStart := false
    botScores := []
    deadline := some (ctx.deadline READY_SECONDS)
    resultsNotified := false
    roundStartedAt := none
    nextPickTeam := m.state.turnTeam.other }
  m.touch ctx state (some .ready)

/-- The playlist item of a selected map. -/
def selectedItem (m : Match) (slot : Slot) : PlaylistItem :=
  { roomId := m.roomId
    id := m.state.playlistItemId + 1
    beatmapId := slot.beatmapId
    rulesetId := m.rulesetId
    requiredMods := slot.mods
    allowedMods := if slot.category = "FM" ∨ slot.category = "TB" then
        [{ acronym := "EZ" }, { acronym := "HD" }, { acronym := "HR" }]
      else [] }

/-- The second half of `select_map`: play the slot, or cancel the match when its
beatmap is gone. -/
def World.selectSlot (ctx : Ctx) (k : MatchId) (m : Match) (slot : Slot) (w : World) : World :=
  match (w.env.beatmaps slot.beatmapId).filter (!·.deleted) with
  | none =>
    w.finishMatch ctx k none true
      ("A pool beatmap is no longer available. " ++
        "The match was cancelled without a rating change.")
  | some beatmap =>
    let w := w.putMatch k (m.select ctx slot.id beatmap.checksum)
    { w with playlists := w.playlists ++ [selectedItem m slot] }

/-- `select_map`. -/
def selectMap (ctx : Ctx) (k : MatchId) (slotId : String) : Act Unit := do
  let m ← getMatch k
  let slot ← require (fun _ => m.state.findSlot slotId) (reject "Slot not found." 404)
  write (World.selectSlot ctx k m slot)

inductive DraftKind where
  | ban | pick
  deriving DecidableEq, Repr

/-- The stage in which the captain may act so. -/
def DraftKind.stage : DraftKind → Stage
  | ban => .banning
  | pick => .picking

/-- The row when a slot is banned. -/
def Match.ban (m : Match) (ctx : Ctx) (slotId : String) : Match :=
  let team := m.state.turnTeam
  let bans := m.state.bans.set team (m.state.bans.get team + 1)
  let finished := m.state.bansPerTeam ≤ min bans.red bans.blue
  let state := { m.state with
    slots := modifySlot slotId
      (fun slot => { slot with status := .banned, selectedByTeam := some team }) m.state.slots
    draftHistory := m.state.draftHistory ++ [{ slotId := slotId, teamId := team }]
    bans := bans
    turnTeam := if finished then m.state.nextPickTeam else team.other
    deadline := some (ctx.deadline PICK_SECONDS) }
  m.touch ctx state (some (if finished then .picking else .banning))

/-- `draft_action`. -/
def draftAction (ctx : Ctx) (k : MatchId) (uid : Option UserId) (action : DraftKind)
    (slotId : String) : Act Unit := do
  let m ← getMatch k
  refuse (fun _ => m.state.captains.get m.state.turnTeam ≠ uid)
    (reject "It is the other team's captain's turn." 403)
  refuse (fun _ => m.stage ≠ action.stage) (reject "The draft phase has already changed.")
  let slot ← require (fun _ => m.state.findSlot slotId) (reject "Slot not found." 404)
  refuse (fun _ => slot.status ≠ .available) (reject "This slot is no longer available.")
  match action with
  | .ban => write (World.putMatch k (m.ban ctx slotId))
  | .pick => selectMap ctx k slotId

/-! ## Rounds -/

/-- The row with one more round in its history. -/
def Match.record (m : Match) (ctx : Ctx) (slot : Slot) (winner : Option Team)
    (totals : PerTeam Nat) (players : List PlayerResult) (forfeit : Bool) (reason : String) :
    Match :=
  let entry : HistoryEntry :=
    { round := m.state.history.length + 1
      slotId := slot.id
      playlistItemId := m.state.playlistItemId
      teamScores := totals
      winnerTeamId := winner
      players := players
      pickedByTeam := slot.selectedByTeam
      forfeit := forfeit
      reason := reason }
  let wins := match winner with
    | some team => m.state.wins.set team (m.state.wins.get team + 1)
    | none => m.state.wins
  let state := { m.state with
    history := m.state.history ++ [entry]
    wins := wins
    slots := modifySlot slot.id (fun slot => { slot with status := .played }) m.state.slots }
  m.touch ctx state

/-- The row when the next pick begins. -/
def Match.nextPick (m : Match) (ctx : Ctx) : Match :=
  let state := { m.state with
    turnTeam := m.state.nextPickTeam
    deadline := some (ctx.deadline PICK_SECONDS) }
  m.touch ctx state (some .picking)

/-- `complete_round`. -/
def completeRound (ctx : Ctx) (k : MatchId) (winner : Option Team) (totals : PerTeam Nat)
    (players : List PlayerResult) (forfeit : Bool := false) (reason : String := "") :
    Act Unit := do
  let m ← getMatch k
  let slot ← require (fun _ => m.state.playedSlot) (reject "Slot not found." 404)
  let m := m.record ctx slot winner totals players forfeit reason
  write (World.putMatch k m)
  if m.state.target ≤ m.state.maxWins then write (World.finishMatch ctx k winner false "")
  else if winner = none ∧ forfeit = false then
    if 3 ≤ (m.state.history.filter fun entry => entry.winnerTeamId = none).length then
      write (World.finishMatch ctx k none false "Three draws: the match ended in a draw.")
    else selectMap ctx k slot.id
  else if m.state.minWins = m.state.bestOf / 2 then selectMap ctx k "TB"
  else write (World.putMatch k (m.nextPick ctx))

/-- The first score of each member on the current item. -/
def roundScores (w : World) (m : Match) (slot : Slot) : List ScoreRow :=
  let scores := w.env.scores.filter fun score =>
    decide (score.roomId = some m.roomId ∧ score.playlistItemId = some m.state.playlistItemId ∧
      score.userId ∈ membersOf m ∧ score.beatmapId = slot.beatmapId ∧
      score.mapMd5 = slot.checksum ∧ score.gamemode = GameMode.ofRuleset m.rulesetId)
  scores.insertionSort fun a b => a.id ≤ b.id

/-- The statistics of a submitted score. -/
def ScoreRow.statistics (score : ScoreRow) : List (String × Int) :=
  [("miss", score.nmiss), ("meh", score.n50), ("ok", score.n100), ("great", score.n300),
    ("perfect", score.ngeki), ("good", score.nkatu)]

/-- The result of one member: the bot's posted score, else the first submitted one. -/
def playerResult (m : Match) (scores : List ScoreRow) (uid : UserId) : PlayerResult :=
  let bot := m.state.botScores.find? fun score => score.userId = uid
  let own := scores.find? fun score => score.userId = uid
  { userId := uid
    score := match bot with
      | some score => score.score
      | none => (own.map fun score => score.totalScore.toNat).getD 0
    accuracy := match bot with
      | some score => score.accuracy
      | none => (own.map (·.accuracy)).getD 0
    scoreId := own.map (·.id)
    missing := own.isNone && bot.isNone
    isBot := m.state.isBot uid
    maxCombo := match bot with
      | some score => score.maxCombo
      | none => (own.map (·.maxCombo)).getD 0
    statistics := match bot with
      | some score => score.statistics
      | none => (own.map (·.statistics)).getD []
    maximumStatistics := (bot.map (·.maximumStatistics)).getD []
    rank := match bot with
      | some score => score.rank
      | none => (own.map (·.rank)).getD "F"
    passed := match bot with
      | some score => score.passed
      | none => (own.map (·.passed)).getD false }

/-- `totals`. -/
def teamTotals (teams : PerTeam (List UserId)) (players : List PlayerResult) : PerTeam Nat :=
  teams.map fun team =>
    ((players.filter fun player => decide (player.userId ∈ team)).map (·.score)).sum

def roundWinner (totals : PerTeam Nat) : Option Team :=
  if totals.blue < totals.red then some .red
  else if totals.red < totals.blue then some .blue else none

/-- `settle_round`. -/
def settleRound (ctx : Ctx) (k : MatchId) (force : Bool) : Act Unit := do
  let m ← getMatch k
  when (decide (m.stage = .results)) do
    let slot ← require (fun _ => m.state.playedSlot) (reject "Slot not found." 404)
    let scores ← read fun w => roundScores w m slot
    let submitted := scores.map (·.userId) ++ m.state.botScores.map (·.userId)
    when (force || sameMembers submitted (membersOf m)) do
      let players := (membersOf m).map (playerResult m scores)
      let totals := teamTotals m.state.teams players
      completeRound ctx k (roundWinner totals) totals players

/-! ## Player actions -/

inductive MatchAct where
  | poolVote | ban | pick | leaveMatch | customStart | decline | ready | unready
  deriving DecidableEq, Repr

/-- `next(i for i, members in enumerate(teams) if user_id in members)`. -/
def teamOf (teams : PerTeam (List UserId)) (uid : UserId) : Team :=
  if uid ∈ teams.red then .red else .blue

/-- The captain's side of a pool vote. -/
def captainTeam (captains : PerTeam (Option UserId)) (uid : UserId) : Team :=
  if captains.red = some uid then .red else .blue

/-- The row with a captain's pool vote. -/
def Match.vote (m : Match) (ctx : Ctx) (uid : UserId) (poolId : Nat) : Match :=
  let team := captainTeam m.state.captains uid
  let others := m.state.poolVotes.filter fun vote => vote.1 ≠ team
  m.touch ctx { m.state with poolVotes := others ++ [(team, poolId)] }

/-- `pool_vote`. -/
def poolVote (ctx : Ctx) (k : MatchId) (uid : UserId) (poolId : Option Nat) : Act Unit := do
  let m ← getMatch k
  refuse
    (fun _ => m.stage ≠ .poolSelect ∨ (m.state.captains.red ≠ some uid ∧
      m.state.captains.blue ≠ some uid))
    (reject "Captains select the pool during voting." 403)
  let chosen ← require
    (fun _ => (m.state.poolCandidates.find? fun c => some c.id = poolId).map (·.id))
    (reject "Select one of the suggested tournaments." 422)
  let voted := m.vote ctx uid chosen
  write (World.putMatch k voted)
  when (decide (voted.state.poolVotes.length = 2)) (finishPoolVote ctx k)

/-- Whether a custom match has players enough to start. -/
def Match.filled (m : Match) : Bool :=
  if m.state.arbitrary then
    decide (1 ≤ m.state.teams.red.length ∧ 1 ≤ m.state.teams.blue.length)
  else
    decide (m.state.teams.red.length = m.format.size ∧ m.state.teams.blue.length = m.format.size)

/-- `custom_start`. -/
def customStart (ctx : Ctx) (k : MatchId) (uid : UserId) : Act Unit := do
  let m ← getMatch k
  refuse (fun _ => m.ranked = true ∨ m.ownerId ≠ uid)
    (reject "Only its creator can start this custom match." 403)
  when (decide (m.stage = .waiting)) do
    refuse (fun _ => m.filled = false)
      (reject (if m.state.arbitrary then "Each team needs at least one player."
        else "Fill both teams first."))
    write (World.putMatch k (m.startDraft ctx))

/-- `decline`. -/
def declineMatch (ctx : Ctx) (k : MatchId) (uid : UserId) : Act Unit := do
  let m ← getMatch k
  refuse (fun _ => m.ranked = false ∨ m.stage ≠ .waiting)
    (reject "This match can no longer be declined.")
  penaliseUnaccepted ctx k m [uid]
  write (World.finishMatch ctx k none true "A player declined the ready check.")

/-- The row after `ready` or `unready`. -/
def Match.answer (m : Match) (ctx : Ctx) (uid : UserId) (ready : Bool) : Match :=
  let update := fun l => if ready then sortedSet (uid :: l) else sortedSet (l.filter (· ≠ uid))
  if m.stage = .waiting then
    m.touch ctx { m.state with accepted := update m.state.accepted }
  else m.touch ctx { m.state with ready := update m.state.ready }

/-- `ready` and `unready`. -/
def answerReady (ctx : Ctx) (k : MatchId) (uid : UserId) (ready : Bool) : Act Unit := do
  let m ← getMatch k
  refuse (fun _ => m.stage ≠ .waiting ∧ m.stage ≠ .ready)
    (reject "You cannot confirm readiness right now.")
  refuse (fun _ => ready = false ∧ m.stage ≠ .ready)
    (reject "Readiness can only be cancelled before a beatmap.")
  let m := m.answer ctx uid ready
  write (World.putMatch k m)
  when (m.ranked && decide (m.stage = .waiting) && sameMembers m.state.accepted (membersOf m))
    (write (World.putMatch k (m.startDraft ctx)))

/-- The branches of `match_action` for a live match. -/
def liveAction (ctx : Ctx) (k : MatchId) (m : Match) (uid : UserId) (action : MatchAct)
    (slotId : String) (poolId : Option Nat) : Act Unit :=
  match action with
  | .poolVote => poolVote ctx k uid poolId
  | .ban => draftAction ctx k (some uid) .ban slotId
  | .pick => draftAction ctx k (some uid) .pick slotId
  | .leaveMatch =>
    write (World.finishMatch ctx k (some (teamOf m.state.teams uid).other)
      (decide (m.stage = .waiting)) "A player left the match.")
  | .customStart => customStart ctx k uid
  | .decline => declineMatch ctx k uid
  | .ready => answerReady ctx k uid true
  | .unready => answerReady ctx k uid false

/-- `match_action`. -/
def matchAction (ctx : Ctx) (k : MatchId) (uid : UserId) (action : MatchAct)
    (slotId : Option String := none) (expectedRevision : Option Nat := none)
    (poolId : Option Nat := none) : Act Unit := do
  let m ← getMatch k
  refuse (fun _ => uid ∉ membersOf m) (reject "You are not participating in this match." 403)
  if m.stage.final then
    refuse (fun _ => action ≠ .leaveMatch) (reject "The match has already ended.")
    write (World.setMatch ctx.now uid none)
  else
    refuse (fun _ => expectedRevision.isSome ∧ expectedRevision ≠ some m.revision)
      (reject "The match state has changed. Try again.")
    liveAction ctx k m uid action (slotId.getD "") poolId

/-- The ratings that `match_payload` creates while it shows the players. -/
def matchPayload (k : MatchId) : Act Unit := do
  let m ← getMatch k
  let key := fun uid =>
    { ratingKey m uid with format := if m.ranked then m.format else Format.two }
  write fun w => w.ensureRatings ((membersOf m).map key)

/-! ## Spectator events -/

inductive RoomEventKind where
  | pulse | started | completed | aborted
  deriving DecidableEq, Repr

/-- `SomsaiRoomEvent`. -/
structure RoomEvent where
  event : RoomEventKind
  playlistItemId : Nat
  connected : List UserId
  ready : List UserId
  available : Option (List UserId)
  deriving DecidableEq, Repr

/-- Absent members get two minutes to come back once the match has begun. -/
def offlineAfter (ctx : Ctx) (m : Match) (connected : List UserId) : List (UserId × Time) :=
  (membersOf m).foldl
    (fun offline uid =>
      if uid ∈ connected then offline.filter fun entry => entry.1 ≠ uid
      else if m.stage = .waiting ∨ (offline.any fun entry => entry.1 = uid) then offline
      else offline ++ [(uid, ctx.deadline 120)])
    m.state.offline

/-- The state with what the room reports about its members. -/
def heartbeat (ctx : Ctx) (m : Match) (e : RoomEvent) : MatchState :=
  { m.state with
    connected := e.connected.filter (· ∈ membersOf m)
    serverSeenAt := ctx.now
    available :=
      if e.playlistItemId = m.state.playlistItemId then
        some ((e.available.getD e.ready).filter fun uid =>
          decide (uid ∈ e.connected ∧ uid ∈ membersOf m))
      else m.state.available
    offline := offlineAfter ctx m e.connected }

/-- Whether every participant is connected, ready and has the map. -/
def Match.startable (m : Match) (e : RoomEvent) (state : MatchState) : Bool :=
  sameMembers e.connected (membersOf m) && sameMembers e.ready (membersOf m) &&
    (state.forceStart || sameMembers state.ready (membersOf m)) &&
    sameMembers (state.available.getD []) (membersOf m)

/-- The row after a heartbeat that starts or completes the round, if it does. -/
def roundEvent (ctx : Ctx) (k : MatchId) (m : Match) (e : RoomEvent) : Act Unit :=
  let state := heartbeat ctx m e
  let current := decide (e.playlistItemId = m.state.playlistItemId)
  if e.event = .started ∧ m.stage = .ready ∧ current then do
    refuse (fun _ => m.startable e state = false) (reject "Not all participants are ready.")
    let state := { state with
      roundStartedAt := some ctx.now
      deadline := some (ctx.deadline 1800) }
    write (World.putMatch k (m.touch ctx state (some .playing)))
  else if e.event = .completed ∧ m.stage = .playing ∧ current then
    let state := { state with
      resultsNotified := true
      deadline := some (ctx.deadline RESULT_SECONDS) }
    write (World.putMatch k (m.touch ctx state (some .results)))
  -- A heartbeat keeps the revision, so that a player's draft action stays valid.
  else write (World.putMatch k { m with state := state })

/-- `match.stage in {"ready", "playing", "results"}`. -/
def Stage.inRound : Stage → Bool
  | ready | playing | results => true
  | _ => false

/-- `room_event` of a managed room. -/
def matchEvent (ctx : Ctx) (k : MatchId) (e : RoomEvent) : Act Unit := do
  let m ← getMatch k
  if m.stage.final then pure ()
  else if e.event = .aborted ∧ m.stage.inRound ∧ e.playlistItemId = m.state.playlistItemId then
    completeRound ctx k none ⟨0, 0⟩ [] true
      ("The game server could not start the beatmap. " ++
        "The round was skipped without points.")
  else roundEvent ctx k m e

/-- `room_event`. -/
def roomEvent (ctx : Ctx) (roomId : RoomId) (e : RoomEvent) : Act Unit := do
  let found ← read fun w => w.matchRows.find fun m => decide (m.roomId = roomId)
  onSome found fun x => do
    matchEvent ctx x.1 e
    matchPayload x.1

/-- `internal_bot_results`. -/
def internalBotResults (roomId : RoomId) (playlistItemId : Nat) (scores : List BotScore) :
    Act Unit := do
  let found ← require
    (fun w => (w.matchRows.find fun m => decide (m.roomId = roomId)).filter fun x =>
      !x.2.ranked && (decide (x.2.stage = .playing) || decide (x.2.stage = .results)) &&
        decide (x.2.state.playlistItemId = playlistItemId))
    (reject "The bot round has already changed." 409)
  let m := found.2
  let ids := sortedSet (m.state.bots.map (·.userId))
  refuse
    (fun _ => sameMembers (scores.map (·.userId)) ids = false ∨ scores.length ≠ ids.length)
    (reject "The bot lineup does not match." 422)
  refuse
    (fun _ => m.state.botScores ≠ [] ∧
      (m.state.botScores.all (· ∈ scores) && scores.all (· ∈ m.state.botScores)) = false)
    (reject "The round results have already been saved." 409)
  write (World.putMatch found.1 { m with state := { m.state with botScores := scores } })
  matchPayload found.1

/-! ## The clock -/

/-- The teams with a member whose reconnection period is over. -/
def offlineTeams (now : Time) (m : Match) : List Team :=
  [Team.red, Team.blue].filter fun team =>
    (m.state.teams.get team).any fun uid =>
      m.state.offline.any fun entry => decide (entry.1 = uid ∧ entry.2 ≤ now)

/-- `slot_modifier`. -/
def slotModifier (bot : Bot) (slotId : String) : ℚ :=
  ((bot.slotModifiers.find? fun entry => entry.1 = slotId.toUpper).map Prod.snd).getD 0

/-- The score that `choose_draft_slot` gives a slot. -/
def draftScore (ctx : Ctx) (k : MatchId) (bots : List Bot) (index : Nat) (slot : Slot) : ℚ :=
  let values := bots.map fun bot => slotModifier bot slot.id.toUpper
  let lowest := values.foldl min (values.headD 0)
  7 / 10 * values.sum / (max 1 values.length : Nat) + 3 / 10 * lowest + ctx.draftNoise k index

/-- `choose_draft_slot`: the first slot with the least or the greatest score. -/
def chooseDraftSlot (ctx : Ctx) (k : MatchId) (bots : List Bot) (slots : List Slot)
    (banning : Bool) : Option Slot :=
  let scored := slots.zipIdx.map fun x => (draftScore ctx k bots x.2 x.1, x.1)
  let better := fun (a b : ℚ) => if banning then decide (a < b) else decide (b < a)
  (scored.foldl
    (fun best x =>
      match best with
      | none => some x
      | some b => if better x.1 b.1 then some x else some b)
    none).map Prod.snd

/-- The ban or pick that the stage calls for. -/
def Match.draftKind (m : Match) : DraftKind := if m.stage = .banning then .ban else .pick

/-- Whether a bot is the captain to act, and two seconds have passed. -/
def Match.botTurn (m : Match) (now : Time) : Bool :=
  (decide (m.stage = .banning) || decide (m.stage = .picking)) &&
    ((m.state.captains.get m.state.turnTeam).any m.state.isBot) &&
    decide (m.updatedAt ≤ now - seconds 2)

/-- The bot captain's choice. -/
def botChoice (ctx : Ctx) (k : MatchId) (m : Match) : Option Slot :=
  if m.botTurn ctx.now then
    let bots := m.state.bots.filter fun bot =>
      decide (bot.userId ∈ m.state.teams.get m.state.turnTeam)
    chooseDraftSlot ctx k bots m.state.availableSlots (decide (m.stage = .banning))
  else none

/-- The teams that are not fully present with the map. -/
def missingTeams (m : Match) : List Team :=
  [Team.red, Team.blue].filter fun team =>
    (m.state.teams.get team).any fun uid =>
      !(decide (uid ∈ m.state.available.getD m.state.ready ∧ uid ∈ m.state.connected))

/-- The reason of a round that ends at the ready deadline. -/
def missedReason (m : Match) (missing : List Team) : String :=
  if missing = [] then
    "The game server did not confirm the start. The round was skipped without points."
  else if (m.state.playedSlot.map (·.category)) = some "FM" then
    "The team did not satisfy the FreeMod requirements before the timer expired: " ++
      "technical round loss."
  else "The beatmap was not downloaded in time: technical round loss."

/-- `1 - teams[0] if len(teams) == 1 else None`. -/
def soleOpponent : List Team → Option Team
  | [team] => some team.other
  | _ => none

/-- The ready stage at its deadline. -/
def readyExpired (ctx : Ctx) (k : MatchId) (m : Match) : Act Unit :=
  let missing := missingTeams m
  if missing ≠ [] ∨ m.state.forceStart = true then
    completeRound ctx k (soleOpponent missing) ⟨0, 0⟩ [] true (missedReason m missing)
  else
    let state := { m.state with forceStart := true, deadline := some (ctx.deadline 30) }
    write (World.putMatch k (m.touch ctx state))

/-- The branches of `tick_match` at an expired deadline. -/
def deadlineExpired (ctx : Ctx) (k : MatchId) (m : Match) : Act Unit :=
  match m.stage with
  | .waiting => do
    when m.ranked
      (penaliseUnaccepted ctx k m ((membersOf m).filter fun uid => uid ∉ m.state.accepted))
    write (World.finishMatch ctx k none true "Not all players accepted the match.")
  | .poolSelect => finishPoolVote ctx k
  | .banning | .picking =>
    match m.state.availableSlots with
    | [] => write (World.finishMatch ctx k none true "The pool has no available beatmaps left.")
    | slot :: _ =>
      draftAction ctx k (m.state.captains.get m.state.turnTeam) m.draftKind slot.id
  | .ready => readyExpired ctx k m
  | .playing =>
    write (World.finishMatch ctx k none true
      "The match did not finish in time. Rating was not changed.")
  | .results | .ended | .cancelled => pure ()

/-- `expired`. -/
def Match.expired (m : Match) (now : Time) : Bool :=
  m.state.deadline.any fun deadline => decide (deadline ≤ now)

/-- The part of `tick_match` after the connection checks. -/
def tickStage (ctx : Ctx) (k : MatchId) (m : Match) : Act Unit :=
  match botChoice ctx k m with
  | some slot => draftAction ctx k (m.state.captains.get m.state.turnTeam) m.draftKind slot.id
  | none =>
    if m.stage = .results then settleRound ctx k (m.expired ctx.now)
    else when (m.expired ctx.now) (deadlineExpired ctx k m)

/-- `tick_match`. -/
def tickMatch (ctx : Ctx) (k : MatchId) : Act Unit := do
  let m ← getMatch k
  if m.stage.final then pure ()
  else if m.stage ≠ .waiting ∧ m.state.serverSeenAt < ctx.now - seconds 90 then
    write (World.finishMatch ctx k none true
      "Connection to the game server was lost. Rating was not changed.")
  else if offlineTeams ctx.now m ≠ [] then
    let teams := offlineTeams ctx.now m
    write (World.finishMatch ctx k (soleOpponent teams) (decide (teams.length = 2))
      "The reconnection period expired.")
  else tickStage ctx k m

end Soms.Somsai
