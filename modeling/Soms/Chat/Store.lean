import Mathlib.Data.List.Sort
import Mathlib.Logic.Function.Basic
import Soms.Library.RedisList

/-!
# Where messages are kept

The Redis keys of `RedisMessageSystem` and the `chat_messages` table: how a message is
stored and how the messages of a channel are read.
-/

namespace Soms.Chat

open RedisList

abbrev UserId := Nat
abbrev ChannelId := Nat
abbrev MessageId := Nat
abbrev Time := Nat

structure ChatMessage where
  messageId : MessageId
  channelId : ChannelId
  senderId : UserId
  content : String
  timestamp : Time
  /-- `MessageType.ACTION` instead of `PLAIN` -/
  isAction : Bool
  uuid : Option String
  deriving DecidableEq, Repr

/-- An entry of `pending_messages`. -/
abbrev Key := ChannelId × MessageId

def ChatMessage.key (m : ChatMessage) : Key := (m.channelId, m.messageId)

structure Store where
  /-- `msg:{channel_id}:{message_id}` -/
  entry : ChannelId → MessageId → Option ChatMessage
  /-- `channel:{channel_id}:messages`, in the order of the scores -/
  recent : ChannelId → List MessageId
  /-- `pending_messages` -/
  pending : List Key
  /-- `chat_messages` -/
  rows : List ChatMessage

def Store.empty : Store := ⟨fun _ _ => none, fun _ => [], [], []⟩

/-! ## Writing -/

/-- `ZADD` of a member whose score is its id. -/
def zadd (id : MessageId) (l : List MessageId) : List MessageId :=
  if id ∈ l then l else l.orderedInsert (· ≤ ·) id

/-- `ZREMRANGEBYRANK key 0 -(n + 1)` -/
def zkeep (n : Nat) (l : List MessageId) : List MessageId := l.drop (l.length - n)

/-- `_store_to_redis` up to its `LPUSH`. -/
def Store.setEntry (m : ChatMessage) (st : Store) : Store :=
  { st with
    entry := Function.update st.entry m.channelId
      (Function.update (st.entry m.channelId) m.messageId (some m))
    recent := Function.update st.recent m.channelId
      (zkeep 1000 (zadd m.messageId (st.recent m.channelId))) }

/-- The `LPUSH` of `_store_to_redis`. -/
def Store.enqueue (key : Key) (st : Store) : Store := { st with pending := lpush key st.pending }

def Store.storeToRedis (m : ChatMessage) (st : Store) : Store := (st.setEntry m).enqueue m.key

/-- A row whose id is not taken. -/
def Store.insertRow (m : ChatMessage) (st : Store) : Store :=
  if m.messageId ∈ st.rows.map (·.messageId) then st else { st with rows := st.rows ++ [m] }

/-! ## Reading -/

/-- What goes wrong while the messages of a channel are read. -/
structure Faults where
  redis : Bool := false
  rendering : Bool := false
  /-- The number of rows that the backfill adds before an exception. -/
  backfill : Option Nat := none
  database : Bool := false
  deriving DecidableEq, Repr

def byId (ms : List ChatMessage) : List ChatMessage :=
  ms.insertionSort fun a b => a.messageId ≤ b.messageId

def byIdDesc (ms : List ChatMessage) : List ChatMessage :=
  ms.insertionSort fun a b => b.messageId ≤ a.messageId

/-- The rows of a channel. -/
def Store.rowsOf (c : ChannelId) (st : Store) : List ChatMessage :=
  st.rows.filter fun m => decide (m.channelId = c)

/-- `_get_from_redis` -/
def Store.getFromRedis (fails : Bool) (c : ChannelId) (limit : Nat) (since : MessageId)
    (st : Store) : List ChatMessage :=
  if fails then []
  else
    let keys :=
      if 0 < since then ((st.recent c).filter fun id => decide (since < id)).take limit
      else (st.recent c).reverse.take limit
    let messages := byId (keys.filterMap (st.entry c))
    if since = 0 then messages.reverse else messages

/-- `_backfill_from_database`, which puts each row in front of the ones before. -/
def Store.backfillFromDatabase (stops : Option Nat) (c : ChannelId)
    (existing : List ChatMessage) (limit : Nat) (st : Store) : List ChatMessage :=
  let older :=
    match (existing.map (·.messageId)).min? with
    | some minId => (st.rowsOf c).filter fun m => decide (m.messageId < minId)
    | none => st.rowsOf c
  let dbMessages := (byIdDesc older).take (limit - existing.length)
  let inserted := dbMessages.reverse.take (stops.getD dbMessages.length)
  inserted.foldl (fun messages m => m :: messages) existing

/-- `_get_from_database_only` -/
def Store.getFromDatabaseOnly (fails : Bool) (c : ChannelId) (limit : Nat) (since : MessageId)
    (st : Store) : List ChatMessage :=
  if fails then []
  else if 0 < since then
    (byId ((st.rowsOf c).filter fun m => decide (since < m.messageId))).take limit
  else ((byIdDesc (st.rowsOf c)).take limit).reverse

/-- `get_messages`, where `known` are the users that there are. -/
def Store.getMessages (known : UserId → Bool) (faults : Faults) (c : ChannelId) (limit : Nat)
    (since : MessageId) (st : Store) : List ChatMessage :=
  let fetched := (st.getFromRedis faults.redis c limit since).filter fun m => known m.senderId
  let messages :=
    if faults.rendering then st.getFromDatabaseOnly faults.database c limit since
    else if fetched.length < limit ∧ since = 0 then
      st.backfillFromDatabase faults.backfill c fetched limit
    else fetched
  messages.take limit

/-- `recent_messages` of a channel. -/
def Store.recentMessages (c : ChannelId) (st : Store) : List ChatMessage :=
  ((byIdDesc (st.rowsOf c)).take 50).reverse

/-! ## The content of a channel -/

/-- The two stores have the same messages in the channel. -/
structure SameContent (c : ChannelId) (st st' : Store) : Prop where
  entry : st'.entry c = st.entry c
  recent : st'.recent c = st.recent c
  rows : st'.rowsOf c = st.rowsOf c

variable {st st' : Store} {c : ChannelId}

theorem SameContent.refl (c : ChannelId) (st : Store) : SameContent c st st := ⟨rfl, rfl, rfl⟩

/-- What is read of a channel is determined by its content. -/
theorem SameContent.getMessages (h : SameContent c st st') (known : UserId → Bool)
    (faults : Faults) (limit : Nat) (since : MessageId) :
    st'.getMessages known faults c limit since = st.getMessages known faults c limit since := by
  simp only [Store.getMessages, Store.getFromRedis, Store.backfillFromDatabase,
    Store.getFromDatabaseOnly, h.entry, h.recent, h.rows]

theorem SameContent.recentMessages (h : SameContent c st st') :
    st'.recentMessages c = st.recentMessages c := by
  simp only [Store.recentMessages, h.rows]

/-- Two maps that agree on a channel, with a value replaced in both. -/
theorem update_congr {α : Type} {f g : ChannelId → α} {k : ChannelId} {a b : α} (hfg : g c = f c)
    (hab : c = k → b = a) : Function.update g k b c = Function.update f k a c := by
  by_cases hc : c = k
  · subst hc
    simp [hab rfl]
  · rw [Function.update_of_ne hc, Function.update_of_ne hc, hfg]

/-- A message that is stored in both. -/
theorem SameContent.storeToRedis (h : SameContent c st st') (m : ChatMessage) :
    SameContent c (st.storeToRedis m) (st'.storeToRedis m) := by
  refine ⟨update_congr h.entry fun hc => ?_, update_congr h.recent fun hc => ?_, h.rows⟩
  · rw [← hc, h.entry]
  · rw [← hc, h.recent]

/-- A message of another channel. -/
theorem SameContent.storeToRedis_of_ne (st : Store) {m : ChatMessage} (hne : c ≠ m.channelId) :
    SameContent c st (st.storeToRedis m) :=
  ⟨Function.update_of_ne hne .., Function.update_of_ne hne .., rfl⟩

end Soms.Chat
