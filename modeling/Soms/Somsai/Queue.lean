import Soms.Somsai.Match

/-!
# Matchmaking and the action gateway

`somsai_service.py`, with the two spectator endpoints of `somsai_lio.py` that
touch reservations.
-/

namespace Soms.Somsai

open Txn

/-! ## Compatibility -/

def SEARCH_RADIUS_BASE : ℚ := 150
def SEARCH_RADIUS_CAP : ℚ := 500
def SEARCH_RADIUS_HOLD_SECONDS : ℚ := 300
def SEARCH_RADIUS_RAMP_SECONDS : ℚ := 300
def EXTREME_ARCHSOM_RATING : ℚ := 3500
def DIAMOND_V_MIN : ℚ := 2900

/-- `search_radius`. -/
def searchRadius (waited : ℚ) : ℚ :=
  let waited := max 0 waited
  if waited ≤ SEARCH_RADIUS_HOLD_SECONDS then SEARCH_RADIUS_BASE
  else
    let progress := min 1 ((waited - SEARCH_RADIUS_HOLD_SECONDS) / SEARCH_RADIUS_RAMP_SECONDS)
    SEARCH_RADIUS_BASE + progress * (SEARCH_RADIUS_CAP - SEARCH_RADIUS_BASE)

/-- `(now - joined_at).total_seconds()`. -/
def QueueEntry.waited (e : QueueEntry) (now : Time) : ℚ := ((now - e.joinedAt : Int) : ℚ) / 1000000

/-- `queue_entries_compatible`. -/
def queueEntriesCompatible (left right : QueueEntry) (now : Time) : Bool :=
  let leftWait := left.waited now
  let rightWait := right.waited now
  if |left.rating - right.rating| ≤ min (searchRadius leftWait) (searchRadius rightWait) then true
  else
    -- A 3500+ player who has waited the whole expansion may meet the top of Diamond.
    let (high, highWait, low) :=
      if right.rating ≤ left.rating then (left.rating, leftWait, right.rating)
      else (right.rating, rightWait, left.rating)
    if high < EXTREME_ARCHSOM_RATING ∨
        highWait < SEARCH_RADIUS_HOLD_SECONDS + SEARCH_RADIUS_RAMP_SECONDS then false
    else decide (DIAMOND_V_MIN ≤ low)

/-- The entries whose bit in the mask has the given value. -/
def pickUnits (mask : Nat) (side : Bool) (entries : List QueueEntry) : List QueueEntry :=
  (entries.zipIdx.filter fun x => mask.testBit x.2 = side).map Prod.fst

def unitMembers (entries : List QueueEntry) : List UserId := entries.flatMap (·.members)

/-- `sum(entry.rating * len(entry.members))`. -/
def unitWeight (entries : List QueueEntry) : ℚ :=
  (entries.map fun e => e.rating * (e.members.length : ℚ)).sum

/-- One turn of the loop of `balance_units`. -/
def balanceStep (entries : List QueueEntry) (size : Nat)
    (best : Option (ℚ × PerTeam (List UserId))) (mask : Nat) :
    Option (ℚ × PerTeam (List UserId)) :=
  let left := pickUnits mask true entries
  let right := pickUnits mask false entries
  if (unitMembers left).length ≠ size then best
  else
    let delta := |unitWeight left - unitWeight right| / size
    let teams : PerTeam (List UserId) := ⟨unitMembers left, unitMembers right⟩
    match best with
    | none => some (delta, teams)
    | some (least, _) => if delta < least then some (delta, teams) else best

/-- `balance_units`: parties stay whole, and the team means come as close as they can. -/
def balanceUnits (entries : List QueueEntry) (size : Nat) : Option (PerTeam (List UserId)) :=
  if (unitMembers entries).length ≠ size * 2 then none
  else
    let masks := (List.range (2 ^ entries.length)).filter fun mask => mask.testBit 0
    (masks.foldl (balanceStep entries size) none).map Prod.snd

/-- `itertools.combinations`. -/
def combinations {α : Type} : Nat → List α → List (List α)
  | 0, _ => [[]]
  | _ + 1, [] => []
  | n + 1, a :: rest => (combinations n rest).map (fun c => a :: c) ++ combinations (n + 1) rest

abbrev QueueRow := Nat × QueueEntry

/-- Whether every two entries of the candidate are compatible. -/
def allCompatible (now : Time) : List QueueRow → Bool
  | [] => true
  | x :: rest =>
    (rest.all fun y => queueEntriesCompatible x.2 y.2 now) && allCompatible now rest

/-- The first balanced candidate around the anchor, with its teams. -/
def selectGroup (now : Time) (size : Nat) (anchor : QueueRow) (rest : List QueueRow) :
    Option (List QueueRow × PerTeam (List UserId)) :=
  let nearby := (rest.take 32).filter fun x => queueEntriesCompatible anchor.2 x.2 now
  let candidates := (List.range (size * 2)).flatMap fun count =>
    if count = 0 then [] else (combinations count nearby).map fun others => anchor :: others
  candidates.findSome? fun candidate =>
    if allCompatible now candidate then
      (balanceUnits (candidate.map Prod.snd) size).map fun teams => (candidate, teams)
    else none

/-! ## The queue -/

/-- Release an entry's reservation and delete its row. -/
def World.dropEntry (now : Time) (w : World) (x : QueueRow) : World :=
  let w := w.releaseReservation now x.2.reservationId
  { w with queue := w.queue.delete x.1 }

/-- Delete the rows of matched entries. -/
def World.deleteEntries (w : World) (rows : List QueueRow) : World :=
  rows.foldl (fun w x => { w with queue := w.queue.delete x.1 }) w

/-- The arguments of the match made of the selected entries. -/
def groupSetup (selected : List QueueRow) (teams : PerTeam (List UserId)) (anchor : QueueEntry) :
    Setup :=
  { teams := teams, format := anchor.format, rulesetId := anchor.rulesetId,
    variantId := anchor.variantId, reservations := selected.map fun x => x.2.reservationId }

/-- The release of the selected entries when no pool can be built. -/
def releaseSelected (now : Time) (selected : List QueueRow) : Failure → Option (Act Unit)
  | .http _ _ =>
    some (write fun w =>
      (selected.map fun x => x.2.reservationId).foldl (World.releaseReservation now) w)
  | .other _ => none

/-- Create the match of the selected entries and delete their rows. -/
def makeMatch (ctx : Ctx) (selected : List QueueRow) (teams : PerTeam (List UserId))
    (anchor : QueueEntry) : Act Unit := do
  recover (do
    let _ ← createMatch ctx (groupSetup selected teams anchor)
    pure ()) (releaseSelected ctx.now selected)
  write fun w => w.deleteEntries selected

/-- The loop over the entries of one mode and format. -/
def matchGroup (ctx : Ctx) : Nat → List QueueRow → Act Unit
  | 0, _ => pure ()
  | _ + 1, [] => pure ()
  | fuel + 1, anchor :: rest =>
    match selectGroup ctx.now anchor.2.format.size anchor rest with
    | none => matchGroup ctx fuel rest
    | some (selected, teams) => do
      let invalid ← read fun w =>
        selected.find? fun x => x.2.members.any fun uid => w.isActive uid = false
      match invalid with
      | some x => do
        write fun w => w.dropEntry ctx.now x
        matchGroup ctx fuel ((anchor :: rest).filter fun y => y.1 ≠ x.1)
      | none => do
        makeMatch ctx selected teams anchor.2
        matchGroup ctx fuel
          ((anchor :: rest).filter fun y => decide (y.1 ∉ selected.map Prod.fst))

/-- `(entry.ruleset_id, entry.variant_id, entry.format)`. -/
def QueueEntry.group (e : QueueEntry) : RulesetId × Nat × Format := (e.rulesetId, e.variantId, e.format)

/-- The order of `sorted(groups)`. -/
def groupBefore (a b : RulesetId × Nat × Format) : Bool :=
  decide (a.1 < b.1) || (decide (a.1 = b.1) &&
    (decide (a.2.1 < b.2.1) || (decide (a.2.1 = b.2.1) && decide (a.2.2.size ≤ b.2.2.size))))

/-- The queue in the order `joined_at`, `id`. -/
def World.queueOrder (w : World) : List QueueRow :=
  w.queue.toList.insertionSort fun a b => a.2.joinedAt ≤ b.2.joinedAt

/-- Match the entries of one group. -/
def matchEntries (ctx : Ctx) (entries : List QueueRow) (group : RulesetId × Nat × Format) :
    Act Unit :=
  let entries := entries.filter fun x => x.2.group = group
  matchGroup ctx entries.length entries

/-- `match_queues`. -/
def matchQueues (ctx : Ctx) : Act Unit := do
  let entries ← read World.queueOrder
  write fun w =>
    (entries.filter fun x => decide (x.2.expiresAt ≤ ctx.now)).foldl (World.dropEntry ctx.now) w
  let entries := entries.filter fun x => decide (ctx.now < x.2.expiresAt)
  let groups := (entries.map fun x => x.2.group).dedup.insertionSort fun a b => groupBefore a b
  groups.forM (matchEntries ctx entries)

/-- `validate_mode`. -/
def validateMode (rulesetId : RulesetId) (variantId : Nat) : Act Unit :=
  refuse (fun _ => variantId ∉ (if rulesetId = 3 then [4, 7] else [0]))
    (reject "Unknown game mode or variant." 422)

/-- A mode with a format, as actions carry it. -/
structure Mode where
  format : Format
  rulesetId : RulesetId
  variantId : Nat
  deriving DecidableEq, Repr

def Mode.ratingKey (mode : Mode) (uid : UserId) : RatingKey :=
  { userId := uid, rulesetId := mode.rulesetId, variantId := mode.variantId,
    format := mode.format }

/-- The users who queue together: the captain's party for 2v2, else the user. -/
def queueUnit (uid : UserId) (format : Format) (party : Option (PartyId × Party)) : List UserId :=
  match party with
  | some (_, party) => if format = .two then party.members else [uid]
  | none => [uid]

/-- `join_queue`. -/
def joinQueue (ctx : Ctx) (uid : UserId) (mode : Mode) : Act Unit := do
  let penalty ← dodgeStatus uid
  refuse (fun _ => penalty.accountBanned = true ∨ ∃ e ∈ penalty.expiresAt, ctx.now < e)
    (reject "SOMSAI matchmaking is blocked." 429)
  refuse (fun _ => mode.format ≠ .one ∧ mode.format ≠ .two)
    (reject "Ranked matchmaking is available for 1v1 and 2v2." 422)
  write fun w => w.ensureRating (mode.ratingKey uid)
  let party ← getParty ctx.now uid
  refuse
    (fun _ => mode.format = .two ∧ ∃ x ∈ party, x.2.captainId ≠ uid)
    (reject "Only the party captain can start matchmaking." 403)
  let members := queueUnit uid mode.format party
  write fun w => w.ensureRatings (members.map mode.ratingKey)
  let rating ← read fun w =>
    mean (members.map fun uid => ((w.ratingRow (mode.ratingKey uid)).rating : ℚ))
  let _ ← attempt fun w =>
    mixedPool ctx 0 w.env.warehouse mode.rulesetId mode.variantId rating none
  let r ← reserveMembers ctx.now uid members .queue (party.map Prod.fst)
  let entry : QueueEntry :=
    { reservationId := r, captainId := uid, members := members, format := mode.format,
      rulesetId := mode.rulesetId, variantId := mode.variantId, rating := rating,
      joinedAt := ctx.now, expiresAt := ctx.now + seconds 90 }
  write fun w => { w with queue := w.queue.insert entry }
  write fun w => members.foldl (fun w uid => w.setMatch ctx.now uid none) w
  matchQueues ctx

/-- The waiting ranked match that the user may leave by leaving the queue. -/
def World.waitingMatch (w : World) (uid : UserId) : Option (MatchId × Match) :=
  match w.matchOf uid with
  | none => none
  | some k =>
    (w.matchRows.row k).bind fun m =>
      if m.ranked ∧ m.stage = .waiting ∧ uid ∈ membersOf m then some (k, m) else none

/-- The queue row of a reservation. -/
def World.entryOf (w : World) (r : ReservationId) : Option QueueRow :=
  w.queue.find fun e => e.reservationId = r

/-- `leave_queue` of a user without a queue row. -/
def leaveWaiting (ctx : Ctx) (uid : UserId) : Act Unit := do
  let found ← require (fun w => w.waitingMatch uid)
    (reject "Leave the active match or Ranked queue first.")
  penaliseUnaccepted ctx found.1 found.2 [uid]
  write (World.finishMatch ctx found.1 none true "A player declined the ready check.")

/-- `leave_queue`, once the user's queue row was looked up. -/
def leaveEntry (ctx : Ctx) (uid : UserId) : Option QueueRow → Act Unit
  | none => leaveWaiting ctx uid
  | some x => write fun w => w.dropEntry ctx.now x

/-- `leave_queue`. -/
def leaveQueue (ctx : Ctx) (uid : UserId) : Act Unit := do
  write (World.touchActivity ctx.now uid)
  let held ← read fun w => w.reservationOf uid
  onSome held fun r => do
    let found ← read fun w => w.entryOf r
    leaveEntry ctx uid found

/-! ## Custom matches and duels -/

/-- A sampled and named bot persona. -/
structure BotPersona where
  username : String
  slotModifiers : List (String × ℚ)
  deriving DecidableEq, Repr

/-- `create_bot_team`: one new bot user for each seat. -/
def createBotTeam (count : Nat) (personas : List BotPersona) : Act (List Bot) := do
  let first ← read fun w => w.users.next
  let seat := fun i => personas.getD (i % personas.length) { username := "", slotModifiers := [] }
  write fun w => { w with
    users := (List.range count).foldl
      (fun users i => users.insert { username := (seat i).username, isBot := true }) w.users }
  pure ((List.range count).map fun i =>
    { userId := first + i, slotModifiers := (seat i).slotModifiers })

/-- The arguments of a `custom_create` action.  `personas` is empty without bots. -/
structure CustomRequest where
  poolId : Option Nat
  targetMmr : Option Int
  targetRank : Option Rank
  personas : List BotPersona
  privateLobby : Bool
  arbitrary : Bool
  deriving DecidableEq, Repr

/-- The row with the lobby options. -/
def Match.lobby (m : Match) (ctx : Ctx) (privateLobby arbitrary : Bool) : Match :=
  m.touch ctx { m.state with privateLobby := privateLobby, arbitrary := arbitrary }

/-- The party's members, or the user alone. -/
def partyMembers (uid : UserId) (party : Option (PartyId × Party)) : List UserId :=
  (party.map fun x => x.2.members).getD [uid]

/-- `create_custom`. -/
def createCustom (ctx : Ctx) (uid : UserId) (mode : Mode) (request : CustomRequest) :
    Act Unit := do
  let party ← getParty ctx.now uid
  let members := partyMembers uid party
  refuse (fun _ => ∃ x ∈ party, x.2.captainId ≠ uid)
    (reject "Only the party captain can create a custom match." 403)
  refuse (fun _ => mode.format.size < members.length)
    (reject "The party is larger than the selected team size.")
  let r ← reserveMembers ctx.now uid members .custom (party.map Prod.fst)
  let bots ← createBotTeam (if request.personas = [] then 0 else mode.format.size) request.personas
  let k ← createMatch ctx
    { teams := ⟨members, bots.map (·.userId)⟩, format := mode.format, rulesetId := mode.rulesetId,
      variantId := mode.variantId, reservations := [r], ranked := false, ownerId := some uid,
      poolId := request.poolId, targetMmr := request.targetMmr, targetRank := request.targetRank,
      bots := bots }
  let m ← getMatch k
  write (World.putMatch k (m.lobby ctx request.privateLobby request.arbitrary))

/-- `match is None or match.ranked or match.stage != "waiting"`, negated. -/
def World.openLobby (w : World) (k : Option MatchId) : Option (MatchId × Match) :=
  match k with
  | none => none
  | some k =>
    (w.matchRows.row k).bind fun m =>
      if m.ranked = false ∧ m.stage = .waiting then some (k, m) else none

/-- The reservation under which a captain who is already in the lobby may move its team. -/
def World.lobbyLease (w : World) (uid : UserId) (k : MatchId) (members : List UserId) :
    Option ReservationId :=
  match w.reservationOf uid with
  | none => none
  | some r =>
    (w.reservations.row r).bind fun x =>
      if w.matchOf uid = some k ∧ x.captainId = uid ∧ x.kind = .custom ∧ x.members = members then
        some r
      else none

/-- The row after the members moved to a team. -/
def Match.seat (m : Match) (ctx : Ctx) (members : List UserId) (team : Team)
    (reservation : Option ReservationId) : Match :=
  let teams := m.state.teams.map fun group => group.filter fun uid => uid ∉ members
  let teams := teams.set team (teams.get team ++ members)
  let state := { m.state with
    teams := teams
    captains := teams.map List.head?
    accepted := []
    ready := []
    reservations := m.state.reservations ++ reservation.toList }
  m.touch ctx state

/-- Whether the user was invited to the private lobby and accepted. -/
def World.acceptedInvite (w : World) (uid : UserId) (k : MatchId) : Bool :=
  (w.directInvites.find fun invite =>
    decide (invite.kind = .custom ∧ invite.matchId = some k ∧ invite.targetId = uid ∧
      invite.status = .accepted)).isSome

/-- A new lease for members who are not in the lobby yet. -/
def lobbyReservation (ctx : Ctx) (uid : UserId) (members : List UserId)
    (partyId : Option PartyId) (joined : Bool) : Act (Option ReservationId) :=
  if joined then pure none
  else do
    let r ← reserveMembers ctx.now uid members .custom partyId
    pure (some r)

/-- `join_custom`. -/
def joinCustom (ctx : Ctx) (uid : UserId) (matchId : Option MatchId) (team : Team) : Act Unit := do
  let lobby ← require (fun w => w.openLobby matchId)
    (reject "This custom match is not open for joining.")
  let k := lobby.1
  let m := lobby.2
  refuse (fun _ => m.state.bots ≠ [] ∧ team = .blue)
    (reject "This team is occupied by bots. Join the red team.")
  let party ← getParty ctx.now uid
  let members := partyMembers uid party
  refuse (fun _ => ∃ x ∈ party, x.2.captainId ≠ uid)
    (reject "Only the party captain can join a match." 403)
  write (World.touchActivity ctx.now uid)
  let joined := decide (uid ∈ membersOf m)
  refuse (fun w => m.state.privateLobby && !joined && !w.acceptedInvite uid k)
    (reject "This is a private custom lobby." 403)
  refuse (fun w => joined && (w.lobbyLease uid k members).isNone)
    (reject "Only the party captain can change its team." 403)
  let remaining := (m.state.teams.get team).filter fun x => x ∉ members
  refuse (fun _ => m.format.size < remaining.length + members.length)
    (reject "The selected team does not have enough free slots.")
  let r ← lobbyReservation ctx uid members (party.map Prod.fst) joined
  write (World.putMatch k (m.seat ctx members team r))
  write (World.pointAt ctx k members)

/-- `direct_invite`. -/
def directInvite (ctx : Ctx) (uid : UserId) (targetId : Option UserId) (kind : Option DirectKind)
    (mode : Mode) (matchId : Option MatchId) : Act Unit := do
  let target ← require (fun _ => targetId.filter (· ≠ uid))
    (reject "Select another player and an invitation type." 422)
  let kind ← require (fun _ => kind)
    (reject "Select another player and an invitation type." 422)
  activeUser target
  assertNotBlocked uid target
  assertIdle ctx.now target "This player is already in matchmaking or a match."
  when (decide (kind = .duel))
    (assertIdle ctx.now uid "Leave matchmaking or the current match first.")
  let lobby ← require
    (fun w => match kind with
      | .duel => some none
      | .custom =>
        ((w.openLobby matchId).filter fun x => decide (uid ∈ membersOf x.2)).map some)
    (reject "Open a custom lobby before inviting players.")
  let previous ← read fun w => w.directInvites.find fun invite =>
    decide (invite.kind = kind ∧ invite.inviterId = uid ∧ invite.targetId = target ∧
      invite.status = .pending ∧ ctx.now < invite.expiresAt)
  let invite : DirectInvite :=
    { kind := kind, inviterId := uid, targetId := target, matchId := lobby.map Prod.fst,
      rulesetId := (lobby.map fun x => x.2.rulesetId).getD mode.rulesetId,
      variantId := (lobby.map fun x => x.2.variantId).getD mode.variantId,
      expiresAt := ctx.now + seconds 300 }
  when previous.isNone
    (write fun w => { w with directInvites := w.directInvites.insert invite })

/-- A pending direct invitation to the user, if it has not expired. -/
def World.pendingDirect (w : World) (now : Time) (uid : UserId) (invitation : Option Nat) :
    Option (Nat × DirectInvite) :=
  match invitation with
  | none => none
  | some i =>
    (w.directInvites.row i).bind fun invite =>
      if invite.targetId = uid ∧ invite.status = .pending ∧ now < invite.expiresAt then
        some (i, invite)
      else none

def World.answerDirect (i : Nat) (status : InviteStatus) (w : World) : World :=
  { w with directInvites := w.directInvites.modify i fun invite =>
      { invite with status := status } }

/-- The duel of an accepted invitation. -/
def startDuel (ctx : Ctx) (uid : UserId) (i : Nat) (invite : DirectInvite) : Act Unit := do
  write (World.touchActivity ctx.now invite.inviterId)
  write (World.touchActivity ctx.now uid)
  refuse
    (fun w => (w.reservationOf invite.inviterId).isSome || (w.reservationOf uid).isSome)
    (reject "One of the players is already in matchmaking or a match.")
  let left ← reserveMembers ctx.now invite.inviterId [invite.inviterId] .duel
  let right ← reserveMembers ctx.now uid [uid] .duel
  let k ← createMatch ctx
    { teams := ⟨[invite.inviterId], [uid]⟩, format := .one, rulesetId := invite.rulesetId,
      variantId := invite.variantId, reservations := [left, right], ranked := false,
      ownerId := some invite.inviterId }
  let m ← getMatch k
  write (World.putMatch k (m.startDraft ctx))
  write (World.answerDirect i .accepted)

/-- The custom lobby of an accepted invitation. -/
def acceptLobby (i : Nat) (invite : DirectInvite) : Act Unit := do
  refuse
    (fun w => ((w.openLobby invite.matchId).any fun x => decide (invite.inviterId ∈ membersOf x.2))
      = false)
    (reject "This custom lobby is no longer available.")
  write (World.answerDirect i .accepted)

/-- `direct_invite_action`. -/
def directInviteAction (ctx : Ctx) (uid : UserId) (invitation : Option Nat) (accept : Bool) :
    Act Unit := do
  let found ← require (fun w => w.pendingDirect ctx.now uid invitation)
    (reject "This invitation is no longer available.")
  let i := found.1
  let invite := found.2
  if accept = false then write (World.answerDirect i .declined)
  else
    assertNotBlocked invite.inviterId uid
    if invite.kind = .custom then acceptLobby i invite else startDuel ctx uid i invite

/-! ## The gateway -/

/-- `SomsaiAction`. -/
inductive Action where
  | party (action : PartyAction) (targetId : Option UserId) (invitation : Option Nat)
      (targetUsername : Option String)
  | directInvite (targetId : Option UserId) (kind : Option DirectKind) (matchId : Option MatchId)
  | directAnswer (invitation : Option Nat) (accept : Bool)
  | queueJoin
  | queueLeave
  | customCreate (request : CustomRequest)
  | customJoin (matchId : Option MatchId) (team : Team)
  | play (matchId : Option MatchId) (action : MatchAct) (slotId : Option String)
      (expectedRevision : Option Nat) (poolId : Option Nat)
  deriving DecidableEq, Repr

/-- The dispatch of `handle_action`. -/
def dispatch (ctx : Ctx) (uid : UserId) (mode : Mode) : Action → Act Unit
  | .party action targetId invitation targetUsername =>
    partyAction ctx.now uid action targetId invitation targetUsername
  | .directInvite targetId kind matchId => directInvite ctx uid targetId kind mode matchId
  | .directAnswer invitation accept => directInviteAction ctx uid invitation accept
  | .queueJoin => joinQueue ctx uid mode
  | .queueLeave => leaveQueue ctx uid
  | .customCreate request => createCustom ctx uid mode request
  | .customJoin matchId team => joinCustom ctx uid matchId team
  | .play matchId action slotId expectedRevision poolId => do
    let k ← require (fun _ => matchId) (reject "Match not found." 404)
    matchAction ctx k uid action slotId expectedRevision poolId

/-- `handle_action`. -/
def handleAction (ctx : Ctx) (uid : UserId) (mode : Mode) (action : Action) : Act Unit := do
  validateMode mode.rulesetId mode.variantId
  activeUser uid
  dispatch ctx uid mode action

/-- Keep the user's queue row alive, or drop it when its time is over. -/
def World.refreshEntry (now : Time) (uid : UserId) (w : World) : World :=
  match (w.reservationOf uid).bind w.entryOf with
  | none => w
  | some x =>
    if x.2.expiresAt ≤ now then w.dropEntry now x
    else { w with queue := w.queue.modify x.1 fun e => { e with expiresAt := now + seconds 90 } }

/-- `match_payload` of the user's own match. -/
def ownPayload (uid : UserId) : Act Unit := do
  let own ← read fun w => (w.matchOf uid).filter fun k =>
    (w.matchRows.row k).any fun m => decide (uid ∈ membersOf m)
  onSome own matchPayload

/-- `global_presence`. -/
def globalPresence (ctx : Ctx) (uid : UserId) : Act Unit := do
  activeUser uid
  write (World.setActivity ctx.now uid fun a => { a with lastSeenAt := ctx.now })
  write (World.refreshEntry ctx.now uid)
  let _ ← dodgeStatus uid
  ownPayload uid

/-- `public_state`. -/
def publicState (ctx : Ctx) (uid : UserId) (rulesetId : RulesetId) (variantId : Nat) :
    Act Unit := do
  validateMode rulesetId variantId
  activeUser uid
  let keys := fun uid => [Format.one, Format.two].map fun format =>
    { userId := uid, rulesetId := rulesetId, variantId := variantId, format := format : RatingKey }
  write fun w => w.ensureRatings (keys uid)
  write (World.touchActivity ctx.now uid)
  write (World.refreshEntry ctx.now uid)
  let party ← getParty ctx.now uid
  write fun w => w.ensureRatings ((partyMembers uid party).flatMap keys)
  let _ ← dodgeStatus uid
  ownPayload uid

/-- `leaderboard`, for its own rating row. -/
def leaderboard (uid : UserId) (mode : Mode) (page : Int) : Act Unit := do
  validateMode mode.rulesetId mode.variantId
  refuse (fun _ => (mode.format ≠ .one ∧ mode.format ≠ .two) ∨ page < 1 ∨ 10000 < page)
    (reject "Unknown format or page." 422)
  write fun w => w.ensureRating (mode.ratingKey uid)

/-- `somsai_match`. -/
def somsaiMatch (uid : UserId) (k : MatchId) : Act Unit := do
  refuse (fun w => ((w.matchRows.row k).any fun m => decide (uid ∈ membersOf m)) = false)
    (reject "Match unavailable." 404)
  matchPayload k

/-- `internal_somsai_room`. -/
def internalSomsaiRoom (roomId : RoomId) : Act Unit := do
  let found ← read fun w => w.matchRows.find fun m => decide (m.roomId = roomId)
  onSome found fun x => matchPayload x.1

/-- `tick`. -/
def tick (ctx : Ctx) : Act Unit := do
  matchQueues ctx
  let live ← read fun w => w.matchRows.toList.filter fun x => !x.2.stage.final
  live.forM fun x => tickMatch ctx x.1

/-! ## Native rooms -/

/-- The match that the user's pointer names. -/
def World.pointedMatch (w : World) (uid : UserId) : Option (MatchId × Match) :=
  match w.matchOf uid with
  | none => none
  | some k => (w.matchRows.row k).map fun m => (k, m)

/-- What a claim does first with the reservation the user holds. -/
def departFrom (ctx : Ctx) (uid : UserId) (roomId : RoomId) (r : ReservationId)
    (pointed : Option (MatchId × Match)) : Act Unit :=
  match pointed with
  | some (k, m) =>
    if m.stage.final then write fun w => w.releaseReservation ctx.now r
    else when (decide (m.roomId ≠ roomId)) (matchAction ctx k uid .leaveMatch)
  | none => write fun w => w.releaseReservation ctx.now r

/-- `internal_native_claim`. -/
def internalNativeClaim (ctx : Ctx) (roomId : RoomId) (uid : UserId) : Act Unit := do
  write (World.touchActivity ctx.now uid)
  let held ← read fun w => w.reservationOf uid
  let pointed ← read fun w => w.pointedMatch uid
  onSome held fun r => departFrom ctx uid roomId r pointed
  claimNativeRoom ctx.now uid roomId

end Soms.Somsai
