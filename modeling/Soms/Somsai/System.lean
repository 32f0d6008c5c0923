import Soms.Library.Run
import Soms.Somsai.Queue

/-!
# The system

Every request is served by one `somsai_transaction`: the coordinator lock orders
them, the transaction opens with `lock_somsai`, and it is rolled back when its
body raises.  Between requests the rest of the server changes its own tables.
-/

namespace Soms.Somsai

open Txn

inductive Request where
  /-- `POST /somsai/actions` -/
  | action (uid : UserId) (mode : Mode) (action : Action)
  /-- `GET /somsai/state` -/
  | state (uid : UserId) (rulesetId : RulesetId) (variantId : Nat)
  /-- `GET /somsai/social` -/
  | social (uid : UserId)
  /-- `GET /somsai/leaderboard` -/
  | leaderboard (uid : UserId) (mode : Mode) (page : Int)
  /-- `GET` and `POST /somsai/party/chat` -/
  | partyChat (uid : UserId)
  /-- `GET /somsai/matches/{match_id}` -/
  | view (uid : UserId) (matchId : MatchId)
  /-- The scheduled `tick`. -/
  | tick
  /-- `POST /somsai/rooms/{room_id}/events` -/
  | roomEvent (roomId : RoomId) (e : RoomEvent)
  /-- `POST /somsai/rooms/{room_id}/bot-results` -/
  | botResults (roomId : RoomId) (playlistItemId : Nat) (scores : List BotScore)
  /-- `GET /somsai/rooms/{room_id}` -/
  | room (roomId : RoomId)
  /-- `POST /somsai/native-rooms/{room_id}/users/{user_id}` -/
  | nativeClaim (roomId : RoomId) (uid : UserId)
  /-- `DELETE /somsai/native-rooms/{room_id}/users/{user_id}` -/
  | nativeRelease (roomId : RoomId) (uid : UserId)
  /-- `GET /parties/{user_id}` -/
  | party (uid : UserId)
  /-- `POST /parties/{user_id}/reserve` -/
  | reserve (uid : UserId)
  /-- `POST /party-reservations/{reservation_id}/renew` -/
  | renew (r : ReservationId)
  /-- `DELETE /party-reservations/{reservation_id}` -/
  | release (r : ReservationId)
  deriving DecidableEq, Repr

/-- The body that serves a request. -/
def serve (ctx : Ctx) : Request → Act Unit
  | .action uid mode action => do
    handleAction ctx uid mode action
    publicState ctx uid mode.rulesetId mode.variantId
  | .state uid rulesetId variantId => publicState ctx uid rulesetId variantId
  | .social uid => globalPresence ctx uid
  | .leaderboard uid mode page => leaderboard uid mode page
  | .partyChat uid => do
    let _ ← getParty ctx.now uid
    pure ()
  | .view uid matchId => somsaiMatch uid matchId
  | .tick => tick ctx
  | .roomEvent roomId e => roomEvent ctx roomId e
  | .botResults roomId playlistItemId scores => internalBotResults roomId playlistItemId scores
  | .room roomId => internalSomsaiRoom roomId
  | .nativeClaim roomId uid => internalNativeClaim ctx roomId uid
  | .nativeRelease roomId uid => write (World.releaseNativeRoom uid roomId)
  | .party uid => do
    let _ ← getParty ctx.now uid
    pure ()
  | .reserve _ => nativeReserve
  | .renew r => renewReservation ctx.now r
  | .release r => write fun w => w.releaseReservation ctx.now r

/-- `somsai_transaction` around the body of a request. -/
def transaction (ctx : Ctx) (request : Request) : Act Unit := do
  write (World.lockSomsai ctx.now)
  serve ctx request

/-- The store after a request. -/
def World.after (w : World) (ctx : Ctx) (request : Request) : World :=
  commit (transaction ctx request) w

/-- What the rest of the server may change: accounts are added and edited but
not removed, and never turn into or out of bots; native rooms bring dodge
penalties under their own ids. -/
structure Outside where
  env : Env
  users : Table User
  penalties : List DodgePenalty
  nextRoom : RoomId

structure Outside.Allowed (o : Outside) (w : World) : Prop where
  users_next : w.users.next ≤ o.users.next
  users_kept : ∀ uid user, w.users.row uid = some user →
    ∃ user', o.users.row uid = some user' ∧ user'.isBot = user.isBot
  penalties_native : ∀ p ∈ o.penalties, 0 ≤ p.roomId
  rooms : w.nextRoom ≤ o.nextRoom

/-- The store after the rest of the server changed its tables. -/
def World.outside (w : World) (o : Outside) : World :=
  { w with env := o.env, users := o.users, penalties := w.penalties ++ o.penalties,
           nextRoom := o.nextRoom }

/-- One event of a run. -/
inductive Event where
  | served (ctx : Ctx) (request : Request)
  | changed (o : Outside)

/-- The transitions of the system. -/
inductive Step : World → Event → World → Prop
  | served (w : World) (ctx : Ctx) (request : Request) :
      Step w (.served ctx request) (w.after ctx request)
  | changed (w : World) (o : Outside) (h : o.Allowed w) : Step w (.changed o) (w.outside o)

/-- A store in which no SOMSAI table has a row. -/
structure World.Initial (w : World) : Prop where
  activity : ∀ uid, w.activity uid = none
  parties : w.parties = .empty
  partyInvites : w.partyInvites = .empty
  directInvites : w.directInvites = .empty
  reservations : w.reservations = .empty
  queue : w.queue = .empty
  matchRows : w.matchRows = .empty
  nativeRooms : ∀ uid, w.nativeRooms uid = none
  ratings : ∀ key, w.ratings key = none
  playlists : w.playlists = []
  settled : w.settled = []

/-- The runs whose events satisfy a condition, from a store without rows. -/
def Reaches (P : World → Event → Prop) (w : World) : Prop :=
  ∃ w₀, w₀.Initial ∧ Run Step P w₀ w

/-- A served request either ran to its end or changed nothing. -/
theorem after_cases (w : World) (ctx : Ctx) (request : Request) :
    (∃ u, serve ctx request (w.lockSomsai ctx.now) = (.ok u, w.after ctx request)) ∨
      w.after ctx request = w := by
  rcases commit_cases (transaction ctx request) w with ⟨u, h⟩ | ⟨-, h⟩
  · obtain ⟨_, v, hlock, hserve⟩ := bind_ok.mp h
    obtain rfl := write_ok.mp hlock
    exact .inl ⟨u, hserve⟩
  · exact .inr h

/-- What the lock, every body and the rest of the server keep is kept by every
step.  Bodies are only asked about runs that return, since a failed transaction
is rolled back. -/
theorem Step.keeps {I : World → Prop} {w w' : World} {e : Event} (h : Step w e w') (hw : I w)
    (hlock : ∀ now, I (w.lockSomsai now))
    (hserve : ∀ ctx request u t, e = .served ctx request → I (w.lockSomsai ctx.now) →
      serve ctx request (w.lockSomsai ctx.now) = (.ok u, t) → I t)
    (hchange : ∀ o, e = .changed o → o.Allowed w → I (w.outside o)) : I w' := by
  cases h with
  | served ctx request =>
    rcases after_cases w ctx request with ⟨u, hrun⟩ | hsame
    · exact hserve ctx request u _ rfl (hlock ctx.now) hrun
    · rwa [hsame]
  | changed o ho => exact hchange o rfl ho

/-- No condition on the events of a run. -/
def anyEvent : World → Event → Prop := fun _ _ => True

theorem Reaches.initial {P : World → Event → Prop} {w : World} (h : w.Initial) : Reaches P w :=
  ⟨w, h, .refl w⟩

theorem Reaches.step {P : World → Event → Prop} {w w' : World} {e : Event} (h : Reaches P w)
    (hP : P w e) (hstep : Step w e w') : Reaches P w' := by
  obtain ⟨w₀, h₀, hrun⟩ := h
  exact ⟨w₀, h₀, hrun.tail hP hstep⟩

theorem Reaches.after {P : World → Event → Prop} {w : World} (h : Reaches P w) (ctx : Ctx)
    (request : Request) (hP : P w (.served ctx request)) : Reaches P (w.after ctx request) :=
  h.step hP (.served w ctx request)

theorem Reaches.mono {P Q : World → Event → Prop} (hPQ : ∀ w e, P w e → Q w e) {w : World}
    (h : Reaches P w) : Reaches Q w := by
  obtain ⟨w₀, h₀, hrun⟩ := h
  exact ⟨w₀, h₀, hrun.mono hPQ⟩

/-! ## Fresh stores -/

/-- The store of a server on which nobody has used SOMSAI yet. -/
def World.fresh (users : Table User) (env : Env) : World where
  env := env
  users := users
  activity := fun _ => none
  parties := .empty
  partyInvites := .empty
  directInvites := .empty
  reservations := .empty
  queue := .empty
  matchRows := .empty
  nativeRooms := fun _ => none
  ratings := fun _ => none
  penalties := []
  nextRoom := 1
  playlists := []
  settled := []

theorem World.initial_fresh (users : Table User) (env : Env) : (World.fresh users env).Initial where
  activity _ := rfl
  parties := rfl
  partyInvites := rfl
  directInvites := rfl
  reservations := rfl
  queue := rfl
  matchRows := rfl
  nativeRooms _ := rfl
  ratings _ := rfl
  playlists := rfl
  settled := rfl

/-- Accounts 1 to `n`, all active players. -/
def players (n : Nat) : Table User :=
  (List.range n).foldl (fun users _ => users.insert { username := "" }) .empty

/-- A transaction at the given time whose draws are all the first choice. -/
def Ctx.steady (now : Time) : Ctx where
  now := now
  firstTeam := fun _ => .red
  shuffle := fun _ _ rows => rows
  shuffle_perm := fun _ _ _ => .refl _
  draw := fun _ _ => 0
  draftNoise := fun _ _ => 0
  expectedScore := fun _ => 1 / 2

/-- A warehouse with one map for each slot of a rank, an environment of players
whose first rating is `rating`, and no relationships or scores. -/
def Env.sample (rank : Rank) (rating : Int) : Env where
  beatmaps := fun _ => some { checksum := "", deleted := false }
  scores := []
  warehouse := (ruleFor rank).slots.zipIdx.map fun x =>
    { slot := x.1, category := x.1.take 2 |>.toString, rulesetId := 0, variantId := 0,
      beatmapId := x.2, checksum := "", mods := [], eligibleRanks := [rank] }
  blocked := fun _ _ => false
  follows := fun _ _ => false
  seed := fun _ _ => rating

end Soms.Somsai
