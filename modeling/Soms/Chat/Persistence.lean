import Soms.Chat.Store
import Soms.Library.Run

/-!
# The way of a message into the table

`_store_to_redis` and the batch task of `service/redis_message_system.py`.  Each
command on Redis and each commit is a step of its own, and the process may die
between any two of them.
-/

namespace Soms.Chat.Persistence

open RedisList

/-- Where the batch task is. -/
inductive Phase where
  | stopped
  /-- Popping keys, up to 100. -/
  | collecting (batch : List Key)
  /-- In `_process_message_batch`: the keys that are left, the rows that were added to the
  session, and the rows of the table when it began. -/
  | processing (keys : List Key) (added view : List ChatMessage)
  deriving DecidableEq, Repr

/-- The keys that the task has popped and not read. -/
def Phase.keys : Phase → List Key
  | .stopped => []
  | .collecting batch => batch
  | .processing keys _ _ => keys

/-- The rows that wait for the commit. -/
def Phase.added : Phase → List ChatMessage
  | .processing _ added _ => added
  | _ => []

structure System where
  store : Store
  phase : Phase
  /-- The messages between the first command of `_store_to_redis` and its `LPUSH`. -/
  storing : List ChatMessage

/-- How a key of a batch is read. -/
structure Reading where
  /-- No exception, and the entry is JSON. -/
  readable : Bool := true
  /-- The session sees rows that were committed after the batch was begun. -/
  current : Bool := true
  deriving DecidableEq, Repr

inductive Event where
  /-- `_store_to_redis` up to its `LPUSH`. -/
  | setEntry (m : ChatMessage)
  /-- Its `LPUSH`, after which it returns. -/
  | enqueue (m : ChatMessage)
  /-- The row of another writer. -/
  | insertRow (m : ChatMessage)
  | start
  /-- One turn of the popping loop. -/
  | pop
  /-- An exception in the popping loop, and whether Redis had popped the entry. -/
  | popFails (popped : Bool)
  /-- One key of a batch. -/
  | stage (r : Reading)
  | commit (accepted : Bool)
  /-- The process dies, or the task is cancelled. -/
  | crash

namespace System

def entryOf (s : System) (key : Key) : Option ChatMessage := s.store.entry key.1 key.2

/-- The row that `_process_message_batch` adds for a key. -/
def rowFor (s : System) (r : Reading) (key : Key) (added view : List ChatMessage) :
    Option ChatMessage :=
  let existing := added ++ if r.current then s.store.rows else view
  if r.readable then (s.entryOf key).filter fun _ => key.2 ∉ existing.map (·.messageId) else none

/-- The primary key lets the rows in. -/
def CanCommit (s : System) (added : List ChatMessage) : Prop :=
  ((s.store.rows ++ added).map (·.messageId)).Nodup

instance (s : System) (added : List ChatMessage) : Decidable (s.CanCommit added) :=
  inferInstanceAs (Decidable (List.Nodup _))

def withPhase (s : System) (phase : Phase) : System := { s with phase := phase }

/-- The system after an event.  An event for which the task is not ready is nothing. -/
def after (s : System) : Event → System
  | .setEntry m => { s with store := s.store.setEntry m, storing := m :: s.storing }
  | .enqueue m =>
    if m ∈ s.storing then
      { s with store := s.store.enqueue m.key, storing := s.storing.erase m }
    else s
  | .insertRow m => { s with store := s.store.insertRow m }
  | .start => if s.phase = .stopped then s.withPhase (.collecting []) else s
  | .pop =>
    match s.phase with
    | .collecting batch =>
      if batch.length < 100 then
        match rpop s.store.pending with
        | some (key, pending) =>
          { s with store := { s.store with pending }, phase := .collecting (batch ++ [key]) }
        | none => if batch = [] then s else s.withPhase (.processing batch [] s.store.rows)
      else s.withPhase (.processing batch [] s.store.rows)
    | _ => s
  | .popFails popped =>
    match s.phase with
    | .collecting _ =>
      let pending := if popped then s.store.pending.dropLast else s.store.pending
      { s with store := { s.store with pending }, phase := .collecting [] }
    | _ => s
  | .stage r =>
    match s.phase with
    | .processing (key :: keys) added view =>
      s.withPhase (.processing keys (added ++ (s.rowFor r key added view).toList) view)
    | _ => s
  | .commit accepted =>
    match s.phase with
    | .processing [] added _ =>
      if accepted ∧ s.CanCommit added then
        { s with
          store := { s.store with rows := s.store.rows ++ added }
          phase := .collecting [] }
      else s.withPhase (.collecting [])
    | _ => s
  | .crash => { s with phase := .stopped, storing := [] }

/-- Nothing is stored, and the task does not run. -/
def empty : System := ⟨.empty, .stopped, []⟩

end System

/-- The system takes its events one after another. -/
inductive Step : System → Event → System → Prop
  | mk (s : System) (e : Event) : Step s e (s.after e)

end Soms.Chat.Persistence
