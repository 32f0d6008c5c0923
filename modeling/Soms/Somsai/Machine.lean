import Soms.Somsai.Board
import Soms.Somsai.Queue

/-!
# A match plays its board

`Match.board` forgets everything of a match but its score board.  The bodies of
`Match.lean` that act on a match move the store along `Plays`: they change the
row of that match by a step of the board, or finish it, and leave leases, queue
and other matches to `finishMatch`.
-/

namespace Soms.Somsai

open Txn

/-! ## Slots -/

theorem find_modifySlot {f : Slot → Slot} (hf : ∀ slot, (f slot).id = slot.id) (slotId j : String)
    (slots : List Slot) : (modifySlot slotId f slots).find? (fun slot => slot.id = j) =
      if j = slotId then (slots.find? fun slot => slot.id = slotId).map f
      else slots.find? fun slot => slot.id = j := by
  induction slots with
  | nil => simp [modifySlot]
  | cons slot rest ih =>
    by_cases hid : slot.id = slotId
    · by_cases hj : j = slotId
      · simp [modifySlot, hid, hj, hf]
      · have hne : ¬ slotId = j := fun h => hj h.symm
        simp [modifySlot, hid, hj, hf, hne]
    · by_cases hslot : slot.id = j
      · have hj : ¬ j = slotId := fun h => hid (hslot.trans h)
        simp [modifySlot, hslot, hj]
      · simp [modifySlot, hid, hslot, ih]

theorem findSlot_id {state : MatchState} {slotId : String} {slot : Slot}
    (h : state.findSlot slotId = some slot) : slot.id = slotId := by
  simpa using List.find?_some h

theorem playedSlot_some {state : MatchState} {slot : Slot} (h : state.playedSlot = some slot) :
    state.currentSlot = some slot.id ∧ state.findSlot slot.id = some slot := by
  obtain ⟨slotId, hcurrent, hslot⟩ := Option.bind_eq_some_iff.mp h
  have hid := findSlot_id hslot
  rw [hid]
  exact ⟨hcurrent, hslot⟩

/-! ## The board of a match -/

namespace Match

def board (m : Match) : Board where
  stage := m.stage
  wins := m.state.wins
  rounds := m.state.history.map fun entry => (entry.playlistItemId, entry.winnerTeamId)
  slots := fun slotId => (m.state.findSlot slotId).map (·.status)
  current := m.state.currentSlot
  item := m.state.playlistItemId
  bestOf := m.state.bestOf
  winner := m.state.winnerTeamId

/-- The part of a match that no play changes. -/
structure Seats where
  teams : PerTeam (List UserId)
  bots : List Bot
  reservations : List ReservationId
  ranked : Bool
  format : Format
  rulesetId : RulesetId
  variantId : Nat
  roomId : RoomId
  deriving DecidableEq

def seats (m : Match) : Seats where
  teams := m.state.teams
  bots := m.state.bots
  reservations := m.state.reservations
  ranked := m.ranked
  format := m.format
  rulesetId := m.rulesetId
  variantId := m.variantId
  roomId := m.roomId

/-- The pool was mixed automatically: there is nothing to vote on. -/
def auto (m : Match) : Prop := m.state.poolCandidates = [] ∧ m.state.poolSelected = true

/-- One update of the row of a live match. -/
structure Move (m m' : Match) : Prop where
  live : m.stage.final = false
  live' : m'.stage.final = false
  seats : m'.seats = m.seats
  board : m.auto → m'.auto ∧ (m'.board = m.board ∨ Board.Step m.board m'.board)

variable {m : Match} {ctx : Ctx}

theorem board_mark {state : MatchState} {slotId : String} {slot : Slot} (f : Slot → Slot)
    (hf : ∀ slot, (f slot).id = slot.id) (status : SlotStatus)
    (hstatus : ∀ slot, (f slot).status = status) (hslot : state.findSlot slotId = some slot) :
    (fun j => ((modifySlot slotId f state.slots).find? fun slot => slot.id = j).map (·.status)) =
      Function.update (fun j => (state.findSlot j).map (·.status)) slotId (some status) := by
  funext j
  rw [find_modifySlot hf]
  by_cases hj : j = slotId
  · subst hj
    have hslot : state.slots.find? (fun slot => slot.id = j) = some slot := hslot
    simp [hslot, hstatus]
  · simp [hj, MatchState.findSlot]

theorem board_select (ctx : Ctx) {slotId checksum : String} {slot : Slot}
    (hslot : m.state.findSlot slotId = some slot) :
    (m.select ctx slotId checksum).board = m.board.select slotId := by
  have h := board_mark
    (fun slot => slot.picked checksum (if slotId = "TB" then none else some m.state.turnTeam))
    (fun _ => rfl) .picked (fun _ => rfl) hslot
  simp only [board, select, touch, MatchState.findSlot, Board.select, Board.mark] at h ⊢
  rw [h]
  rfl

theorem board_ban (ctx : Ctx) {slotId : String} {slot : Slot} (hslot : m.state.findSlot slotId = some slot) :
    ∃ stage, (stage = .banning ∨ stage = .picking) ∧
      (m.ban ctx slotId).board = { m.board.mark slotId .banned with stage := stage } := by
  have h := board_mark
    (fun slot => { slot with status := .banned, selectedByTeam := some m.state.turnTeam })
    (fun _ => rfl) .banned (fun _ => rfl) hslot
  refine ⟨(m.ban ctx slotId).stage, ?_, ?_⟩
  · simp only [ban, touch, Option.getD_some]
    split <;> simp
  · simp only [board, ban, touch, MatchState.findSlot, Board.mark] at h ⊢
    rw [h]

theorem board_record {slot : Slot} {winner : Option Team} {totals : PerTeam Nat}
    {players : List PlayerResult} {forfeit : Bool} {reason : String}
    (hslot : m.state.playedSlot = some slot) :
    (m.record ctx slot winner totals players forfeit reason).board =
      m.board.record slot.id winner := by
  have h := board_mark (fun slot => { slot with status := .played }) (fun _ => rfl) .played
    (fun _ => rfl) (playedSlot_some hslot).2
  simp only [board, record, touch, MatchState.findSlot, Board.record, Board.mark] at h ⊢
  rw [h]
  cases winner <;> simp [Board.addWin]

theorem board_nextPick : (m.nextPick ctx).board = { m.board with stage := .picking } := rfl

theorem board_startDraft (ctx : Ctx) (hauto : m.auto) : ∃ stage, (stage = .banning ∨ stage = .picking) ∧
    (m.startDraft ctx).board = { m.board with stage := stage } := by
  refine ⟨(m.startDraft ctx).stage, ?_, ?_⟩
  · simp only [startDraft, hauto.2, if_true, touch, Option.getD_some]
    split <;> simp
  · simp only [startDraft, hauto.2, if_true]
    rfl

theorem board_closed {winner : Option Team} {cancelled : Bool} {reason : String}
    {changes : List RatingChange} :
    ((m.closed ctx winner cancelled reason).withRatings winner changes).board =
      m.board.close (if cancelled then .cancelled else .ended) winner := rfl

/-- A move that changes neither board nor seats. -/
theorem Move.talk {m' : Match} (hlive : m.stage.final = false) (hseats : m'.seats = m.seats)
    (hboard : m'.board = m.board) (hpool : m'.state.poolCandidates = m.state.poolCandidates ∧
      m'.state.poolSelected = m.state.poolSelected) : Move m m' where
  live := hlive
  live' := by
    have hstage : m'.stage = m.stage := congrArg Board.stage hboard
    rw [hstage]
    exact hlive
  seats := hseats
  board hauto := ⟨by rwa [auto, hpool.1, hpool.2], .inl hboard⟩

theorem seats_startDraft : (m.startDraft ctx).seats = m.seats := by
  unfold startDraft
  dsimp only
  split <;> rfl

theorem live_startDraft : (m.startDraft ctx).stage.final = false := by
  unfold startDraft
  dsimp only
  split
  · simp only [touch, Option.getD_some]
    split <;> rfl
  · rfl

theorem auto_startDraft (h : m.auto) : (m.startDraft ctx).auto := by
  unfold startDraft
  dsimp only
  split <;> exact h

theorem Move.start (hstage : m.stage = .waiting) : Move m (m.startDraft ctx) where
  live := by rw [hstage]; rfl
  live' := live_startDraft
  seats := seats_startDraft
  board hauto := by
    obtain ⟨stage, hnext, hboard⟩ := board_startDraft ctx hauto
    exact ⟨auto_startDraft hauto, .inr (hboard ▸ .start hstage stage hnext)⟩

theorem Move.ban {slotId : String} {slot : Slot} (hstage : m.stage = .banning)
    (hslot : m.state.findSlot slotId = some slot) (hstatus : slot.status = .available) :
    Move m (m.ban ctx slotId) := by
  obtain ⟨stage, hnext, hboard⟩ := board_ban ctx hslot
  have hstage' : (m.ban ctx slotId).stage = stage := congrArg Board.stage hboard
  refine ⟨by rw [hstage]; rfl, by rw [hstage']; rcases hnext with rfl | rfl <;> rfl, rfl,
    fun hauto => ⟨hauto, .inr (hboard ▸ .ban hstage slotId ?_ stage hnext)⟩⟩
  simp [Match.board, hslot, hstatus]

theorem Move.pick {slotId checksum : String} {slot : Slot} (hstage : m.stage = .picking)
    (hslot : m.state.findSlot slotId = some slot) (hstatus : slot.status = .available) :
    Move m (m.select ctx slotId checksum) where
  live := by rw [hstage]; rfl
  live' := rfl
  seats := rfl
  board hauto := ⟨hauto, .inr (board_select ctx hslot ▸ .pick hstage slotId (by
    simp [Match.board, hslot, hstatus]))⟩

theorem board_inRound (h : m.stage.inRound = true) : m.board.inRound = true := by
  cases hs : m.stage <;> simp [Stage.inRound, hs] at h <;> simp [board, Board.inRound, hs]

theorem inRound_live (h : m.stage.inRound = true) : m.stage.final = false := by
  cases hs : m.stage <;> simp [Stage.inRound, hs] at h <;> rfl

end Match

/-! ## What a play leaves alone -/

namespace World

/-- Whether an account is a bot, if there is one. -/
def account (w : World) (uid : UserId) : Option Bool := (w.users.row uid).map (·.isBot)

/-- Leases, queue, pointers, matches and settlements. -/
structure Core where
  reservations : Table Reservation
  queue : Table QueueEntry
  reservationOf : UserId → Option ReservationId
  matchOf : UserId → Option MatchId
  matchRows : Table Match
  settled : List MatchId
  account : UserId → Option Bool

def core (w : World) : Core where
  reservations := w.reservations
  queue := w.queue
  reservationOf := w.reservationOf
  matchOf := w.matchOf
  matchRows := w.matchRows
  settled := w.settled
  account := w.account

/-- `t` has the core of `w`, and its rating rows are those of `w` or new ones. -/
structure Quiet (w t : World) : Prop where
  core : t.core = w.core
  ratings : ∀ key, t.ratings key = w.ratings key ∨
    w.ratings key = none ∧ ∃ rating, t.ratings key = some { rating := rating }

theorem Quiet.refl (w : World) : Quiet w w := ⟨rfl, fun _ => .inl rfl⟩

theorem Quiet.trans {u v w : World} (h₁ : Quiet u v) (h₂ : Quiet v w) : Quiet u w := by
  refine ⟨h₂.core.trans h₁.core, fun key => ?_⟩
  rcases h₁.ratings key with h | ⟨hnone, rating, h⟩ <;>
    rcases h₂.ratings key with h' | ⟨hnone', rating', h'⟩
  · exact .inl (h'.trans h)
  · exact .inr ⟨h ▸ hnone', rating', h'⟩
  · exact .inr ⟨hnone, rating, h'.trans h⟩
  · rw [h] at hnone'
    simp at hnone'

instance : Std.Refl Quiet := ⟨Quiet.refl⟩

instance : IsTrans World Quiet := ⟨fun _ _ _ => Quiet.trans⟩

theorem quiet_ensureRating (w : World) (key : RatingKey) : Quiet w (w.ensureRating key) := by
  unfold ensureRating
  split
  · exact .refl w
  · next hnone =>
    refine ⟨rfl, fun key' => ?_⟩
    by_cases hkey : key' = key
    · subst hkey
      exact .inr ⟨hnone, w.env.seed key'.userId key'.rulesetId, by simp⟩
    · exact .inl (by simp [hkey])

theorem quiet_ensureRatings (w : World) (keys : List RatingKey) :
    Quiet w (w.ensureRatings keys) := by
  induction keys generalizing w with
  | nil => exact .refl w
  | cons key rest ih => exact (quiet_ensureRating w key).trans (ih _)

/-- The part of the store that a body must leave alone to be quiet. -/
def quietView (w : World) : Core × (RatingKey → Option Rating) := (w.core, w.ratings)

variable {w : World} {now : Time} {uid : UserId}

theorem core_setActivity {f : Activity → Activity}
    (hr : ∀ a, (f a).reservationId = a.reservationId) (hm : ∀ a, (f a).matchId = a.matchId) :
    (w.setActivity now uid f).core = w.core := by
  have h₁ : (w.setActivity now uid f).reservationOf = w.reservationOf := by
    funext x
    by_cases hx : x = uid
    · subst hx
      cases ha : w.activity x <;> simp [reservationOf, setActivity, activityRow, ha, hr]
    · simp [reservationOf, setActivity, hx]
  have h₂ : (w.setActivity now uid f).matchOf = w.matchOf := by
    funext x
    by_cases hx : x = uid
    · subst hx
      cases ha : w.activity x <;> simp [matchOf, setActivity, activityRow, ha, hm]
    · simp [matchOf, setActivity, hx]
  simp only [core, h₁, h₂]
  rfl

theorem quietView_setActivity {f : Activity → Activity}
    (hr : ∀ a, (f a).reservationId = a.reservationId) (hm : ∀ a, (f a).matchId = a.matchId) :
    (w.setActivity now uid f).quietView = w.quietView := by
  simp only [quietView, core_setActivity hr hm]
  rfl

instance : Frame quietView (touchActivity now uid) :=
  ⟨fun _ => quietView_setActivity (fun _ => rfl) fun _ => rfl⟩

instance {t : Time} : Frame quietView (setActivity now uid fun a => { a with lastSeenAt := t }) :=
  ⟨fun _ => quietView_setActivity (fun _ => rfl) fun _ => rfl⟩

instance {p : Option PartyId} : Frame quietView (setParty now uid p) :=
  ⟨fun _ => quietView_setActivity (fun _ => rfl) fun _ => rfl⟩

theorem account_addPenalty (w : World) (key : Int) (uid : UserId) :
    (w.addPenalty now key uid).account = w.account := by
  funext x
  simp only [account, addPenalty]
  split
  · rw [Table.row_modify]
    split
    · cases w.users.row x <;> rfl
    · rfl
  · rfl

instance {key : Int} : Frame quietView fun w : World => w.addPenalty now key uid where
  eq w := by
    simp only [quietView, core, account_addPenalty]
    rfl

instance {g : World → Table Party} : Frame quietView fun w => { w with parties := g w } :=
  ⟨fun _ => rfl⟩

instance {g : World → Table PartyInvite} :
    Frame quietView fun w => { w with partyInvites := g w } :=
  ⟨fun _ => rfl⟩

instance {g : World → Table DirectInvite} :
    Frame quietView fun w => { w with directInvites := g w } :=
  ⟨fun _ => rfl⟩

instance {g : World → UserId → Option NativeRoom} :
    Frame quietView fun w => { w with nativeRooms := g w } :=
  ⟨fun _ => rfl⟩

instance {i : Nat} {status : InviteStatus} : Frame quietView (answerDirect i status) :=
  ⟨fun _ => rfl⟩

instance {room : RoomId} : Frame quietView (releaseNativeRoom uid room) where
  eq w := by
    unfold releaseNativeRoom
    split <;> rfl

end World

open World

instance {α : Type} {x : Act α} [h : Leaves quietView x] : Follows Quiet x :=
  h.follows fun s t hst => by
    simp only [quietView, Prod.mk.injEq] at hst
    exact ⟨hst.1, fun key => .inl (by rw [hst.2])⟩

instance {keys : World → List RatingKey} :
    Follows Quiet (write fun w : World => w.ensureRatings (keys w) : Act Unit) :=
  follows_write fun w => quiet_ensureRatings w _

instance {key : RatingKey} : Follows Quiet (write fun w : World => w.ensureRating key : Act Unit) :=
  follows_write fun w => quiet_ensureRating w key

section QuietBodies

set_option synthInstance.maxSize 2000

variable {ctx : Ctx} {now : Time} {uid : UserId} {k : MatchId}

instance : Leaves quietView (activeUser uid) := by unfold activeUser; infer_instance

instance {message : String} : Leaves quietView (assertIdle now uid message) := by
  unfold assertIdle; infer_instance

instance : Leaves quietView (Somsai.getParty now uid) := by
  unfold Somsai.getParty; infer_instance

instance {party : Party} : Leaves quietView (assertPartyIdle now party) := by
  unfold assertPartyIdle; infer_instance

instance {a b : UserId} : Leaves quietView (assertNotBlocked a b) := by
  unfold assertNotBlocked; infer_instance

instance : Leaves quietView (checkReservable now uid) := by
  unfold checkReservable; infer_instance

instance : Leaves quietView (leaveParty now uid) := by unfold leaveParty; infer_instance

instance {invite : PartyInvite} : Leaves quietView (acceptInvite now uid invite) := by
  unfold acceptInvite; infer_instance

instance {action : PartyAction} {targetId : Option UserId} {invitation : Option Nat}
    {name : Option String} :
    Leaves quietView (partyAction now uid action targetId invitation name) := by
  have hresolve : ∀ action, Leaves quietView (resolveTarget action targetId name) := by
    intro action
    unfold resolveTarget
    split <;> infer_instance
  have hanswer : ∀ accept, Leaves quietView (answerInvite now uid invitation accept) := by
    intro accept
    unfold answerInvite
    infer_instance
  have hensure : Leaves quietView (ensureParty now uid) := by
    unfold ensureParty
    refine @leaves_bind World Failure _ _ _ _ _ _ inferInstance fun found => ?_
    cases found <;> dsimp only <;> infer_instance
  have hinvite : ∀ p party target, Leaves quietView (inviteTo now uid p party target) := by
    intro p party target
    unfold inviteTo
    dsimp only
    infer_instance
  unfold partyAction
  cases action <;> infer_instance

instance : Leaves quietView (dodgeStatus uid) := by unfold dodgeStatus; infer_instance

instance {key : Int} {room : Option Bool} {missing : Bool} :
    Leaves quietView (registerDodge now key uid room missing) :=
  leaves_registerDodge

instance {m : Match} {uids : List UserId} : Leaves quietView (penaliseUnaccepted ctx k m uids) := by
  unfold penaliseUnaccepted; infer_instance

instance {targetId : Option UserId} {kind : Option DirectKind} {mode : Mode}
    {matchId : Option MatchId} : Leaves quietView (directInvite ctx uid targetId kind mode matchId) := by
  unfold directInvite; dsimp only; infer_instance

instance {i : Nat} {invite : DirectInvite} : Leaves quietView (acceptLobby i invite) := by
  unfold acceptLobby; infer_instance

instance {rulesetId : RulesetId} {variantId : Nat} :
    Leaves quietView (validateMode rulesetId variantId) := by
  unfold validateMode; infer_instance

instance {room : RoomId} : Leaves quietView (claimNativeRoom now uid room) := by
  unfold claimNativeRoom; dsimp only; infer_instance

instance : Leaves id (getMatch k) := by unfold getMatch; infer_instance

instance : Follows Quiet (matchPayload k) := by unfold matchPayload; dsimp only; infer_instance

instance : Follows Quiet (ownPayload uid) := by unfold ownPayload; infer_instance

end QuietBodies

end Soms.Somsai
