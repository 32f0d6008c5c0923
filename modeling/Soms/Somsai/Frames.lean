import Soms.Somsai.System

/-!
# What bodies leave alone

Few bodies change what the rest of the server provides, the dodge penalties, or
the parties: only the party actions and the expiry of stale parties change a
party, an invitation to one or a member's party pointer, and only the ready check
stores penalties.  A part of the store that reads these tables alone is left
alone by the other bodies, whether they return or raise.
-/

namespace Soms.Somsai

open Txn

namespace World

/-- The party tables and the pointers into them. -/
def partyView (w : World) : Table Party × Table PartyInvite × (UserId → Option PartyId) :=
  (w.parties, w.partyInvites, w.partyOf)

/-- The environment, the penalties and the parties. -/
def rest (w : World) : Env × List DodgePenalty ×
    Table Party × Table PartyInvite × (UserId → Option PartyId) :=
  (w.env, w.penalties, w.partyView)

/-- A part of the store that `rest` determines. -/
class Bystander {γ : Type} (π : World → γ) : Prop where
  eq : ∀ w t : World, t.rest = w.rest → π t = π w

/-- A part of the store in which no penalty shows. -/
class IgnoresPenalties {γ : Type} (π : World → γ) : Prop where
  eq : ∀ (w : World) (now : Time) (key : Int) (uid : UserId), π (w.addPenalty now key uid) = π w

/-- A part of the store in which no party shows. -/
class IgnoresParties {γ : Type} (π : World → γ) : Prop where
  eq : ∀ w t : World, t.env = w.env → t.penalties = w.penalties → π t = π w

instance : Bystander partyView := ⟨fun _ _ h => congrArg (fun r => r.2.2) h⟩

instance : Bystander World.env := ⟨fun _ _ h => congrArg Prod.fst h⟩

instance : Bystander World.penalties := ⟨fun _ _ h => congrArg (fun r => r.2.1) h⟩

instance : IgnoresPenalties partyView := ⟨fun _ _ _ _ => rfl⟩

instance : IgnoresPenalties World.env := ⟨fun _ _ _ _ => rfl⟩

instance : IgnoresParties World.env := ⟨fun _ _ h _ => h⟩

instance : IgnoresParties World.penalties := ⟨fun _ _ _ h => h⟩

variable {γ : Type} {π : World → γ} [hπ : Bystander π]

theorem frame_of_rest {f : World → World} (h : ∀ w, (f w).rest = w.rest) : Frame π f :=
  ⟨fun w => Bystander.eq _ _ (h w)⟩

variable {w : World} {now : Time} {uid : UserId}

theorem partyOf_setActivity {f : Activity → Activity} (hf : ∀ a, (f a).partyId = a.partyId) :
    (w.setActivity now uid f).partyOf = w.partyOf := by
  funext x
  by_cases hx : x = uid
  · subst hx
    cases ha : w.activity x <;> simp [partyOf, setActivity, activityRow, ha, hf]
  · simp [partyOf, setActivity, hx]

theorem rest_setActivity {f : Activity → Activity} (hf : ∀ a, (f a).partyId = a.partyId) :
    (w.setActivity now uid f).rest = w.rest := by
  simp only [rest, partyView, partyOf_setActivity hf]
  rfl

instance : Frame π (touchActivity now uid) := frame_of_rest fun _ => rest_setActivity fun _ => rfl

instance {t : Time} : Frame π (setActivity now uid fun a => { a with lastSeenAt := t }) :=
  frame_of_rest fun _ => rest_setActivity fun _ => rfl

theorem rest_setReservation (w : World) (uid : UserId) {r : Option ReservationId} :
    (w.setReservation now uid r).rest = w.rest :=
  rest_setActivity fun _ => rfl

theorem rest_setMatch (w : World) (uid : UserId) {k : Option MatchId} :
    (w.setMatch now uid k).rest = w.rest :=
  rest_setActivity fun _ => rfl

instance {k : Option MatchId} : Frame π (setMatch now uid k) :=
  frame_of_rest fun w => rest_setMatch w uid

theorem rest_releaseReservation (w : World) (r : ReservationId) :
    (w.releaseReservation now r).rest = w.rest := by
  unfold releaseReservation
  cases w.reservations.row r with
  | none => rfl
  | some reservation =>
    have hfold : (reservation.members.foldl (releaseMember now r) w).rest = w.rest := by
      refine foldl_leaves rest (fun v uid => ?_) _ _
      unfold releaseMember
      split
      · exact rest_setActivity fun _ => rfl
      · exact rest_setActivity fun _ => rfl
    rw [← hfold]
    simp only
    split <;> rfl

instance {r : ReservationId} : Frame π fun w : World => w.releaseReservation now r :=
  frame_of_rest fun w => rest_releaseReservation w r

theorem rest_expireReservations : (w.expireReservations now).rest = w.rest := by
  unfold expireReservations
  refine foldl_leaves rest (fun v x => ?_) _ _
  split
  · exact rest_releaseReservation v x.1
  · rfl

theorem rest_ensureRatings (w : World) (keys : List RatingKey) :
    (w.ensureRatings keys).rest = w.rest := by
  refine foldl_leaves rest (fun v key => ?_) _ _
  unfold ensureRating
  split <;> rfl

instance {keys : World → List RatingKey} : Frame π fun w : World => w.ensureRatings (keys w) :=
  frame_of_rest fun w => rest_ensureRatings w _

instance {key : RatingKey} : Frame π fun w : World => w.ensureRating key :=
  frame_of_rest fun w => rest_ensureRatings w [key]

theorem rest_settleRatings {ctx : Ctx} {k : MatchId} {m : Match} {winner : Option Team} :
    (w.settleRatings ctx k m winner).1.rest = w.rest := by
  unfold settleRatings
  simp only
  rw [foldl_leaves fun x : World × List RatingChange => x.1.rest]
  · exact rest_ensureRatings w _
  · rintro ⟨v, changes⟩ seat
    rfl

theorem rest_pointAt (w : World) {ctx : Ctx} {k : MatchId} {members : List UserId} :
    (w.pointAt ctx k members).rest = w.rest :=
  foldl_leaves rest (fun v uid => rest_setMatch v uid) members w

instance {ctx : Ctx} {k : MatchId} {members : List UserId} :
    Frame π (pointAt ctx k members) :=
  frame_of_rest fun w => rest_pointAt w

theorem rest_finishMatch (w : World) {ctx : Ctx} {k : MatchId} {winner : Option Team}
    {cancelled : Bool} {reason : String} :
    (w.finishMatch ctx k winner cancelled reason).rest = w.rest := by
  unfold finishMatch
  cases w.matchRows.row k with
  | none => rfl
  | some m =>
    simp only
    split
    · rfl
    · rw [rest_pointAt, foldl_leaves rest fun v r => rest_releaseReservation v r]
      unfold settle
      split
      · exact rest_settleRatings
      · rfl

instance {ctx : Ctx} {k : MatchId} {winner : Option Team} {cancelled : Bool} {reason : String} :
    Frame π (finishMatch ctx k winner cancelled reason) :=
  frame_of_rest fun w => rest_finishMatch w

instance {k : MatchId} {m : Match} : Frame π (putMatch k m) := frame_of_rest fun _ => rfl

instance {ctx : Ctx} {setup : Setup} {pool : Pool} {rating : ℚ} :
    Frame π (addMatch ctx setup pool rating) :=
  frame_of_rest fun _ => rfl

instance {ctx : Ctx} {k : MatchId} {m : Match} {slot : Slot} :
    Frame π (selectSlot ctx k m slot) := by
  refine frame_of_rest fun w => ?_
  unfold selectSlot
  split
  · exact rest_finishMatch w
  · rfl

instance [h : IgnoresPenalties π] {key : Int} :
    Frame π fun w : World => w.addPenalty now key uid :=
  ⟨fun w => h.eq w now key uid⟩

theorem rest_dropEntry (w : World) (x : QueueRow) :
    (w.dropEntry now x).rest = w.rest :=
  rest_releaseReservation w _

instance {x : QueueRow} : Frame π fun w : World => w.dropEntry now x :=
  frame_of_rest fun w => rest_dropEntry w x

instance {rows : List QueueRow} : Frame π fun w : World => w.deleteEntries rows :=
  frame_of_rest fun w => foldl_leaves rest (by intro _ _; rfl) rows w

instance : Frame π (refreshEntry now uid) := by
  refine frame_of_rest fun w => ?_
  unfold refreshEntry
  split
  · rfl
  · split
    · exact rest_dropEntry w _
    · rfl

instance {room : RoomId} : Frame π (releaseNativeRoom uid room) := by
  refine frame_of_rest fun w => ?_
  unfold releaseNativeRoom
  split <;> rfl

instance {g : World → Table QueueEntry} : Frame π fun w => { w with queue := g w } :=
  frame_of_rest fun _ => rfl

instance {g : World → Table Reservation} : Frame π fun w => { w with reservations := g w } :=
  frame_of_rest fun _ => rfl

instance {g : World → Table DirectInvite} :
    Frame π fun w => { w with directInvites := g w } :=
  frame_of_rest fun _ => rfl

instance {g : World → Table User} : Frame π fun w => { w with users := g w } :=
  frame_of_rest fun _ => rfl

instance {g : World → UserId → Option NativeRoom} :
    Frame π fun w => { w with nativeRooms := g w } :=
  frame_of_rest fun _ => rfl

instance {i : Nat} {status : InviteStatus} : Frame π (answerDirect i status) :=
  frame_of_rest fun _ => rfl

instance {members : List UserId} {k : Option MatchId} :
    Frame π fun w : World => members.foldl (fun w uid => w.setMatch now uid k) w :=
  frame_of_rest fun w => foldl_leaves rest (fun v uid => rest_setMatch v uid) members w

instance {members : List UserId} {r : Option ReservationId} :
    Frame π fun w : World => members.foldl (fun w uid => w.setReservation now uid r) w :=
  frame_of_rest fun w => foldl_leaves rest (fun v uid => rest_setReservation v uid) members w

instance {rows : List QueueRow} :
    Frame π fun w : World => rows.foldl (dropEntry now) w :=
  frame_of_rest fun w => foldl_leaves rest (fun v x => rest_dropEntry v x) rows w

end World

open World

/-! ## Bodies -/

section Bodies

-- One step of the search for each statement of the body.
set_option synthInstance.maxSize 2000

variable {γ : Type} {π : World → γ} [hπ : Bystander π]
  {ctx : Ctx} {now : Time} {uid : UserId} {k : MatchId}

instance : Leaves π (activeUser uid) := by unfold activeUser; infer_instance

instance {message : String} : Leaves π (assertIdle now uid message) := by
  unfold assertIdle; infer_instance

instance : Leaves π (Somsai.getParty now uid) := by
  unfold Somsai.getParty; infer_instance

instance {party : Party} : Leaves π (assertPartyIdle now party) := by
  unfold assertPartyIdle; infer_instance

instance {a b : UserId} : Leaves π (assertNotBlocked a b) := by
  unfold assertNotBlocked; infer_instance

instance : Leaves π (checkReservable now uid) := by
  unfold checkReservable; infer_instance

instance {captain : UserId} {members : List UserId} {kind : ReservationKind}
    {partyId : Option PartyId} :
    Leaves π (reserveMembers now captain members kind partyId) := by
  unfold reserveMembers; infer_instance

instance : Leaves π (dodgeStatus uid) := by unfold dodgeStatus; infer_instance

instance : Leaves π (getMatch k) := by unfold getMatch; infer_instance

instance {setup : Setup} : Leaves π (createMatch ctx setup) := by
  unfold createMatch; infer_instance

instance {slotId : String} : Leaves π (selectMap ctx k slotId) := by
  unfold selectMap; infer_instance

instance {o : Option UserId} {action : DraftKind} {slotId : String} :
    Leaves π (draftAction ctx k o action slotId) := by
  unfold draftAction; cases action <;> infer_instance

instance {winner : Option Team} {totals : PerTeam Nat} {players : List PlayerResult}
    {forfeit : Bool} {reason : String} :
    Leaves π (completeRound ctx k winner totals players forfeit reason) := by
  unfold completeRound; dsimp only; infer_instance

instance {force : Bool} : Leaves π (settleRound ctx k force) := by
  unfold settleRound; dsimp only; infer_instance

instance : Leaves π (finishPoolVote ctx k) := by unfold finishPoolVote; dsimp only; infer_instance

/-- Only `decline` stores a penalty. -/
theorem liveAction_leaves {m : Match} {action : MatchAct} {slotId : String} {poolId : Option Nat}
    (h : action ≠ .decline) : Leaves π (liveAction ctx k m uid action slotId poolId) := by
  cases action with
  | decline => exact absurd rfl h
  | _ =>
    unfold liveAction
    simp only [poolVote, customStart, answerReady]
    infer_instance

theorem matchAction_leaves {action : MatchAct} {slotId : Option String}
    {revision poolId : Option Nat} (h : action ≠ .decline) :
    Leaves π (matchAction ctx k uid action slotId revision poolId) := by
  have hlive : ∀ m, Leaves π (liveAction ctx k m uid action (slotId.getD "") poolId) := fun _ =>
    liveAction_leaves h
  unfold matchAction
  infer_instance

instance : Leaves π (matchPayload k) := by unfold matchPayload; infer_instance

instance {m : Match} {e : RoomEvent} : Leaves π (roundEvent ctx k m e) := by
  unfold roundEvent; dsimp only; infer_instance

instance {roomId : RoomId} {e : RoomEvent} : Leaves π (roomEvent ctx roomId e) := by
  unfold roomEvent matchEvent; infer_instance

instance {roomId : RoomId} {item : Nat} {scores : List BotScore} :
    Leaves π (internalBotResults roomId item scores) := by
  unfold internalBotResults; dsimp only; infer_instance

instance {m : Match} : Leaves π (readyExpired ctx k m) := by
  unfold readyExpired; infer_instance

instance {selected : List QueueRow} {teams : PerTeam (List UserId)} {anchor : QueueEntry} :
    Leaves π (makeMatch ctx selected teams anchor) := by
  have hrelease : ∀ e y, releaseSelected ctx.now selected e = some y → Leaves π y := by
    intro e y hy
    cases e with
    | other message => simp [releaseSelected] at hy
    | http status message =>
      obtain rfl := Option.some.inj hy
      have : Frame π fun w : World =>
          (selected.map fun x => x.2.reservationId).foldl (World.releaseReservation ctx.now) w :=
        frame_of_rest fun w => foldl_leaves rest (fun v r => rest_releaseReservation v r) _ w
      infer_instance
  have hcreate : Leaves π
      (createMatch ctx (groupSetup selected teams anchor) >>= fun _ => pure ()) := inferInstance
  have hmake := leaves_recover hcreate hrelease
  exact leaves_bind

instance {fuel : Nat} {entries : List QueueRow} : Leaves π (matchGroup ctx fuel entries) := by
  induction fuel generalizing entries with
  | zero => exact leaves_pure ()
  | succ fuel ih =>
    cases entries with
    | nil => exact leaves_pure ()
    | cons anchor rest =>
      unfold matchGroup
      split
      · exact ih
      · refine @leaves_bind World Failure _ _ _ _ _ _ inferInstance fun invalid => ?_
        cases invalid <;> exact leaves_bind

instance : Leaves π (matchQueues ctx) := by
  unfold matchQueues matchEntries; dsimp only; infer_instance

instance {rulesetId : RulesetId} {variantId : Nat} :
    Leaves π (validateMode rulesetId variantId) := by
  unfold validateMode; infer_instance

instance {mode : Mode} : Leaves π (joinQueue ctx uid mode) := by
  unfold joinQueue; dsimp only; infer_instance

instance {count : Nat} {personas : List BotPersona} :
    Leaves π (createBotTeam count personas) := by
  unfold createBotTeam; infer_instance

instance {mode : Mode} {request : CustomRequest} :
    Leaves π (createCustom ctx uid mode request) := by
  unfold createCustom; dsimp only; infer_instance

instance {matchId : Option MatchId} {team : Team} :
    Leaves π (joinCustom ctx uid matchId team) := by
  unfold joinCustom lobbyReservation; dsimp only; infer_instance

instance {targetId : Option UserId} {kind : Option DirectKind} {mode : Mode}
    {matchId : Option MatchId} : Leaves π (directInvite ctx uid targetId kind mode matchId) := by
  unfold directInvite; dsimp only; infer_instance

instance {invitation : Option Nat} {accept : Bool} :
    Leaves π (directInviteAction ctx uid invitation accept) := by
  unfold directInviteAction acceptLobby startDuel; dsimp only; infer_instance

instance : Leaves π (ownPayload uid) := by unfold ownPayload; infer_instance

instance : Leaves π (globalPresence ctx uid) := by unfold globalPresence; infer_instance

instance {rulesetId : RulesetId} {variantId : Nat} :
    Leaves π (publicState ctx uid rulesetId variantId) := by
  unfold publicState; infer_instance

instance {mode : Mode} {page : Int} : Leaves π (leaderboard uid mode page) := by
  unfold leaderboard; infer_instance

instance : Leaves π (somsaiMatch uid k) := by unfold somsaiMatch; infer_instance

instance {roomId : RoomId} : Leaves π (internalSomsaiRoom roomId) := by
  unfold internalSomsaiRoom; infer_instance

instance {r : ReservationId} : Leaves π (renewReservation now r) := by
  unfold renewReservation; infer_instance

instance {room : RoomId} : Leaves π (claimNativeRoom now uid room) := by
  unfold claimNativeRoom; dsimp only; infer_instance

instance {roomId : RoomId} : Leaves π (internalNativeClaim ctx roomId uid) := by
  have hdepart : ∀ r pointed, Leaves π (departFrom ctx uid roomId r pointed) := by
    intro r pointed
    have hleave : ∀ k, Leaves π (matchAction ctx k uid .leaveMatch) := fun _ =>
      matchAction_leaves (by simp)
    unfold departFrom
    split <;> infer_instance
  unfold internalNativeClaim
  infer_instance

/-- No stage but `waiting` stores a penalty at its deadline. -/
theorem deadlineExpired_leaves {m : Match} (h : m.stage ≠ .waiting) :
    Leaves π (deadlineExpired ctx k m) := by
  unfold deadlineExpired
  cases hstage : m.stage with
  | waiting => exact absurd hstage h
  | _ => simp only; first | infer_instance | (split <;> infer_instance)

theorem tickStage_leaves {m : Match} (h : m.stage ≠ .waiting) : Leaves π (tickStage ctx k m) := by
  have hexpired : Leaves π (deadlineExpired ctx k m) := deadlineExpired_leaves h
  unfold tickStage
  split <;> infer_instance

/-! ### The ready check -/

section Penalties

variable [IgnoresPenalties π]

instance {key : Int} {room : Option Bool} {missing : Bool} :
    Leaves π (registerDodge now key uid room missing) :=
  leaves_registerDodge

instance {m : Match} {uids : List UserId} : Leaves π (penaliseUnaccepted ctx k m uids) := by
  unfold penaliseUnaccepted; infer_instance

instance {action : MatchAct} {slotId : Option String} {revision poolId : Option Nat} :
    Leaves π (matchAction ctx k uid action slotId revision poolId) := by
  by_cases h : action = .decline
  · subst h
    unfold matchAction liveAction declineMatch
    infer_instance
  · exact matchAction_leaves h

instance {m : Match} : Leaves π (deadlineExpired ctx k m) := by
  by_cases h : m.stage = .waiting
  · unfold deadlineExpired
    simp only [h]
    infer_instance
  · exact deadlineExpired_leaves h

instance {m : Match} : Leaves π (tickStage ctx k m) := by
  unfold tickStage
  split <;> infer_instance

instance : Leaves π (tickMatch ctx k) := by unfold tickMatch; infer_instance

instance {found : Option QueueRow} : Leaves π (leaveEntry ctx uid found) := by
  cases found <;> unfold leaveEntry
  · unfold leaveWaiting; infer_instance
  · infer_instance

instance : Leaves π (leaveQueue ctx uid) := by unfold leaveQueue; infer_instance

instance : Leaves π (tick ctx) := by unfold tick; infer_instance

end Penalties

/-! ### Parties -/

section Parties

variable [hparty : IgnoresParties π]

theorem leaves_lockSomsai (now : Time) (w : World) : π (w.lockSomsai now) = π w := by
  have hlink : ∀ p (v : World) uid, π (v.dropPartyLink p uid) = π v := by
    intro p v uid
    unfold dropPartyLink
    split
    · rfl
    · split
      · exact hparty.eq _ _ rfl rfl
      · rfl
  have hset : ∀ (v : World) parties, π { v with parties := parties } = π v := fun v _ =>
    hparty.eq v _ rfl rfl
  have hstale : ∀ cutoff (v : World) p, π (v.expireStaleParty cutoff p) = π v := by
    intro cutoff v p
    unfold expireStaleParty
    split
    · rfl
    · next party _ =>
      have hdrop := foldl_leaves π (hlink p)
        (party.members.filter fun uid => !v.retains cutoff uid) v
      split
      · dsimp only
        split
        · exact hdrop
        · exact (hset _ _).trans hdrop
      · rfl
  exact (Bystander.eq _ _ rest_expireReservations).trans (foldl_leaves π (hstale _) _ w)

instance {p : Option PartyId} : Frame π (setParty now uid p) :=
  ⟨fun _ => hparty.eq _ _ rfl rfl⟩

instance {g : World → Table Party} : Frame π fun w => { w with parties := g w } :=
  ⟨fun _ => hparty.eq _ _ rfl rfl⟩

instance {g : World → Table PartyInvite} : Frame π fun w => { w with partyInvites := g w } :=
  ⟨fun _ => hparty.eq _ _ rfl rfl⟩

instance : Leaves π (leaveParty now uid) := by unfold leaveParty; infer_instance

instance {invite : PartyInvite} : Leaves π (acceptInvite now uid invite) := by
  unfold acceptInvite; infer_instance

instance {action : PartyAction} {targetId : Option UserId} {invitation : Option Nat}
    {name : Option String} : Leaves π (partyAction now uid action targetId invitation name) := by
  have hresolve : ∀ action, Leaves π (resolveTarget action targetId name) := by
    intro action
    unfold resolveTarget
    split <;> infer_instance
  have hanswer : ∀ accept, Leaves π (answerInvite now uid invitation accept) := by
    intro accept
    unfold answerInvite
    infer_instance
  have hensure : Leaves π (ensureParty now uid) := by
    unfold ensureParty
    refine @leaves_bind World Failure _ _ _ _ _ _ inferInstance fun found => ?_
    cases found <;> dsimp only <;> infer_instance
  have hinvite : ∀ p party target, Leaves π (inviteTo now uid p party target) := by
    intro p party target
    unfold inviteTo
    dsimp only
    infer_instance
  unfold partyAction
  cases action <;> infer_instance

end Parties

end Bodies

end Soms.Somsai
