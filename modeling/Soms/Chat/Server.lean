import Soms.Chat.Store
import Soms.Library.Run
import Soms.Library.Table
import Soms.Library.Txn

/-!
# The chat server

`router/notification/server.py`, `message.py` and `channel.py`: the channels, who is in
them, and the requests of users.
-/

namespace Soms.Chat

open Txn

inductive ChannelType where
  | PUBLIC | PRIVATE | MULTIPLAYER | SPECTATOR | TEMPORARY | PM | GROUP | SYSTEM | ANNOUNCE | TEAM
  deriving DecidableEq, Repr

structure ChatChannel where
  name : String
  type : ChannelType
  deriving DecidableEq, Repr

structure Server where
  store : Store
  /-- `channels` -/
  channels : ChannelId → Option (List UserId)
  /-- `connect_client` -/
  connected : UserId → Bool
  channelRows : Table ChatChannel
  /-- The users, each with whether the user is restricted. -/
  users : UserId → Option Bool
  /-- `chat:{channel_id}:last_read:{user_id}` -/
  lastRead : ChannelId → UserId → Option MessageId
  /-- `chat:{channel_id}:last_msg` -/
  lastMsg : ChannelId → Option MessageId
  /-- What the sockets of the users were sent. -/
  sent : UserId → List ChatMessage

inductive ErrorType where
  | messagingRestricted | channelNotFound | youAreNotInChannel | targetUserNotFound
  deriving DecidableEq, Repr

abbrev Act (α : Type) := Txn Server ErrorType α

def BANCHOBOT_ID : UserId := 2

/-! ## Membership -/

namespace Server

def members (s : Server) (c : ChannelId) : List UserId := (s.channels c).getD []

/-- The user is in `server.channels[c]`. -/
def Member (s : Server) (c : ChannelId) (uid : UserId) : Prop := uid ∈ s.members c

instance (s : Server) (c : ChannelId) (uid : UserId) : Decidable (s.Member c uid) :=
  inferInstanceAs (Decidable (_ ∈ _))

/-- The part of `join_channel` that changes the members. -/
def join (c : ChannelId) (s : Server) (uid : UserId) : Server :=
  if uid ∈ s.members c then s
  else { s with channels := Function.update s.channels c (some (s.members c ++ [uid])) }

/-- `batch_join_channel` -/
def batchJoinChannel (uids : List UserId) (c : ChannelId) (s : Server) : Server :=
  uids.foldl (join c) s

/-- A member list without a user; `leave_channel` deletes a list that is empty. -/
def without (uid : UserId) (users : List UserId) : Option (List UserId) :=
  if users.erase uid = [] then none else some (users.erase uid)

/-- `leave_channel` -/
def leave (c : ChannelId) (uid : UserId) (s : Server) : Server :=
  { s with channels := Function.update s.channels c ((s.channels c).bind (without uid)) }

/-- `disconnect`; the list of a channel without a row is kept. -/
def disconnect (uid : UserId) (s : Server) : Server :=
  { s with
    connected := Function.update s.connected uid false
    channels := fun c => (s.channels c).bind fun users =>
      if uid ∈ users then
        if (s.channelRows.row c).isSome then without uid (users.erase uid)
        else some (users.erase uid)
      else some users }

/-! ## Channels -/

end Server

/-- The path parameter `channel`: digits are an id. -/
inductive ChannelRef where
  | id (c : ChannelId)
  | name (name : String)
  deriving DecidableEq, Repr

namespace Server

def findName (name : String) (s : Server) : Option (ChannelId × ChatChannel) :=
  s.channelRows.find fun row => row.name == name

/-- The row that a path parameter names. -/
def channelOf (s : Server) : ChannelRef → Option (ChannelId × ChatChannel)
  | .id c => (s.channelRows.row c).map fun row => (c, row)
  | .name name => s.findName name

/-- The first channel that has one of the names, or a new one with the first name, and
the users join it. -/
def openChannel (name : String) (others : List String) (type : ChannelType) (uids : List UserId)
    (s : Server) : ChannelId × Server :=
  match (name :: others).findSome? s.findName with
  | some (c, _) => (c, s.batchJoinChannel uids c)
  | none =>
    (s.channelRows.next,
      { s with channelRows := s.channelRows.insert ⟨name, type⟩ }.batchJoinChannel uids
        s.channelRows.next)

/-- `ChatChannel.get_pm_channel`, or a new channel. -/
def openPm (uid target : UserId) (s : Server) : ChannelId × Server :=
  s.openChannel s!"pm_{uid}_{target}" [s!"pm_{target}_{uid}"] .PM [target, uid]

/-! ## Requests for a channel -/

def restricted (s : Server) (uid : UserId) : Bool := (s.users uid).getD false

end Server

/-- What a call of an `async` function returns before it is awaited. -/
structure Coroutine (α : Type) where
  result : α

/-- `x is False` for a coroutine object `x`, which is not the constant `False`. -/
def Coroutine.isFalse (_ : Coroutine Bool) : Bool := false

namespace Server

/-- `is_user_in_channel` -/
def isUserInChannel (s : Server) (c : ChannelId) (uid : UserId) : Coroutine Bool :=
  ⟨decide (uid ∈ s.members c)⟩

/-- `server.mark_as_read` -/
def markAsRead (c : ChannelId) (uid : UserId) (message : MessageId) (s : Server) : Server :=
  { s with
    lastRead := Function.update s.lastRead c
      (Function.update (s.lastRead c) uid (some message)) }

/-- The event of a new message on the sockets of some users. -/
def sendEvent (uids : List UserId) (m : ChatMessage) (s : Server) : Server :=
  { s with
    sent := fun uid =>
      if uid ∈ uids ∧ s.connected uid = true then s.sent uid ++ [m] else s.sent uid }

/-- `send_message_to_channel` -/
def sendMessageToChannel (m : ChatMessage) (isBotCommand : Bool) (s : Server) : Server :=
  let s := s.sendEvent (if isBotCommand then [m.senderId] else s.members m.channelId) m
  if 0 < m.messageId then
    let s := s.markAsRead m.channelId m.senderId m.messageId
    { s with lastMsg := Function.update s.lastMsg m.channelId (some m.messageId) }
  else s

end Server

/-- A request for a channel.  The id and the time of a message are what the counter and
the clock give. -/
inductive Request where
  | send (ref : ChannelRef) (content : String) (isAction : Bool) (uuid : Option String)
      (id : MessageId) (now : Time)
  | get (ref : ChannelRef) (limit : Nat) (since : MessageId) (faults : Faults)
  | markAsRead (ref : ChannelRef) (message : MessageId)
  deriving DecidableEq, Repr

inductive Response where
  | message (m : ChatMessage)
  | messages (ms : List ChatMessage)
  | noContent
  deriving DecidableEq, Repr

def Request.ref : Request → ChannelRef
  | .send ref .. => ref
  | .get ref .. => ref
  | .markAsRead ref _ => ref

/-- The messages from old to new, if the first and the last one tell the order. -/
def chronological (ms : List ChatMessage) : List ChatMessage :=
  match ms.head?, ms.getLast? with
  | some first, some last => if last.messageId < first.messageId then ms.reverse else ms
  | _, _ => ms

/-- The check that the three endpoints make of the membership. -/
def requireMember (uid : UserId) (c : ChannelId) : Act Unit :=
  refuse (fun s => (s.isUserInChannel c uid).isFalse = true) .youAreNotInChannel

def sendMessage (uid : UserId) (ref : ChannelRef) (content : String) (isAction : Bool)
    (uuid : Option String) (id : MessageId) (now : Time) : Act Response := do
  refuse (fun s => s.restricted uid = true) .messagingRestricted
  let (c, row) ← require (fun s => s.channelOf ref) .channelNotFound
  refuse (fun _ => row.name = "#announce" ∧ uid ≠ BANCHOBOT_ID) .messagingRestricted
  requireMember uid c
  let m : ChatMessage := ⟨id, c, uid, content, now, isAction, uuid.filter (· ≠ "")⟩
  write fun s => { s with store := s.store.storeToRedis m }
  write fun s => s.sendMessageToChannel m (content.startsWith "!" && row.type == .PUBLIC)
  pure (.message m)

def getMessage (uid : UserId) (ref : ChannelRef) (limit : Nat) (since : MessageId)
    (faults : Faults) : Act Response := do
  let (c, _) ← require (fun s => s.channelOf ref) .channelNotFound
  requireMember uid c
  let ms ← read fun s =>
    s.store.getMessages (fun uid => (s.users uid).isSome) faults c limit since
  pure (.messages (chronological ms))

def markAsRead (uid : UserId) (ref : ChannelRef) (message : MessageId) : Act Response := do
  let (c, _) ← require (fun s => s.channelOf ref) .channelNotFound
  requireMember uid c
  write fun s => s.markAsRead c uid message
  pure .noContent

def serve (uid : UserId) : Request → Act Response
  | .send ref content isAction uuid id now => sendMessage uid ref content isAction uuid id now
  | .get ref limit since faults => getMessage uid ref limit since faults
  | .markAsRead ref message => markAsRead uid ref message

/-! ## The system -/

/-- `create_new_pm` with the id of the row and what `is_user_can_pm` says. -/
def createNewPm (uid target : UserId) (canPm : Bool) (content : String) (isAction : Bool)
    (uuid : Option String) (id : MessageId) (now : Time) : Act (List ChatMessage × ChatMessage) := do
  refuse (fun s => s.restricted uid = true) .messagingRestricted
  refuse (fun s => s.users target ≠ some false) .targetUserNotFound
  refuse (fun _ => canPm = false) .messagingRestricted
  let c ← read fun s => (s.openPm uid target).1
  write fun s => (s.openPm uid target).2
  let recentMessages ← read fun s => s.store.recentMessages c
  let m : ChatMessage := ⟨id, c, uid, content, now, isAction, uuid⟩
  write fun s => { s with store := s.store.insertRow m }
  write (Server.sendMessageToChannel m false)
  pure (recentMessages, m)

inductive Event where
  | request (uid : UserId) (r : Request)
  | createNewPm (uid target : UserId) (canPm : Bool) (content : String) (isAction : Bool)
      (uuid : Option String) (id : MessageId) (now : Time)
  /-- `chat.start` on the websocket, which joins the channel 1 and the announcements. -/
  | connect (uid : UserId)
  /-- `join_channel` of `channel.py` -/
  | joinChannel (uid : UserId) (ref : ChannelRef)
  /-- `leave_channel` of `channel.py` -/
  | leaveChannel (uid : UserId) (ref : ChannelRef)
  /-- `create_channel` and the channels of rooms: the first channel of one of the names. -/
  | openChannel (name : String) (others : List String) (type : ChannelType) (uids : List UserId)
  /-- `join_room_channel` -/
  | joinRoom (c : ChannelId) (uid : UserId)
  /-- `leave_room_channel` -/
  | leaveRoom (c : ChannelId) (uid : UserId)
  /-- The room of a channel ended. -/
  | endRoom (c : ChannelId)
  | disconnect (uid : UserId)
  /-- A user is created, or restricted or not any more. -/
  | setUser (uid : UserId) (restricted : Bool)
  /-- A message reaches the table. -/
  | persist (m : ChatMessage)

namespace Server

def empty : Server :=
  ⟨.empty, fun _ => none, fun _ => false, .empty, fun _ => none, fun _ _ => none, fun _ => none,
    fun _ => []⟩

/-- The server after an event. -/
def after (s : Server) : Event → Server
  | .request uid r => commit (serve uid r) s
  | .createNewPm uid target canPm content isAction uuid id now =>
    commit (createNewPm uid target canPm content isAction uuid id now) s
  | .connect uid =>
    let s := { s with connected := Function.update s.connected uid true }
    let s := if (s.channelRows.row 1).isSome then s.join 1 uid else s
    match s.findName "#announce" with
    | some (c, _) => s.join c uid
    | none => s
  | .joinChannel uid ref =>
    if s.restricted uid then s else ((s.channelOf ref).map fun x => s.join x.1 uid).getD s
  | .leaveChannel uid ref =>
    if s.restricted uid then s else ((s.channelOf ref).map fun x => s.leave x.1 uid).getD s
  | .openChannel name others type uids => (s.openChannel name others type uids).2
  | .joinRoom c uid =>
    if (s.channelRows.row c).isSome ∧ (s.users uid).isSome then s.join c uid else s
  | .leaveRoom c uid =>
    if (s.channelRows.row c).isSome ∧ (s.users uid).isSome then s.leave c uid else s
  | .endRoom c => { s with channels := Function.update s.channels c none }
  | .disconnect uid => s.disconnect uid
  | .setUser uid restricted => { s with users := Function.update s.users uid (some restricted) }
  | .persist m => { s with store := s.store.insertRow m }

end Server

end Soms.Chat
