import Mathlib
import Soms.Library.RedisList

/-!
# The mail queue

`service/email_service.py`: the list of ids `email_queue`, a hash for each id, and the tasks that
hold an id between two commands on Redis: a request that enqueues a mail, a worker that took the
id from the queue, and a delayed retry.  There may be any number of workers.
-/

namespace Soms.Mail

open RedisList

abbrev MailId := Nat

abbrev Time := Nat

/-- What is to be sent. -/
structure Email where
  toEmail : String
  subject : String
  content : String
  htmlContent : String
  metadata : String
  deriving DecidableEq, Repr

inductive Status where
  | pending | sending | sent | failed
  deriving DecidableEq, Repr

/-- The hash `email:{email_id}`, with the fields that are there, and whether it expires. -/
structure Hash where
  email : Option Email := none
  createdAt : Option Time := none
  status : Option Status := none
  retryCount : Option Nat := none
  lastRetry : Option Time := none
  sentAt : Option Time := none
  expires : Bool := false
  deriving DecidableEq, Repr

/-- `int(email_data.get("retry_count", "0"))` -/
def Hash.retries (data : Hash) : Nat := data.retryCount.getD 0

/-- What a task has done for its id. -/
inductive Phase where
  /-- `enqueue_email` has written the hash. -/
  | stored
  /-- It has set the expiry. -/
  | expiring
  /-- A worker has taken the id from the queue. -/
  | popped
  | read (data : Hash)
  | sending (data : Hash)
  /-- The provider has taken the mail. -/
  | succeeded
  | markedSent
  /-- The provider has not taken it, or has raised. -/
  | failed (data : Hash)
  | counted (retryCount : Nat)
  | pending (retryCount : Nat)
  | dated (retryCount : Nat)
  /-- `_delayed_retry` waits. -/
  | delayed (delay : Nat)
  deriving DecidableEq, Repr

/-- A call of the provider, with what it was given and whether it took the mail. -/
structure Attempt where
  id : MailId
  email : Option Email
  ok : Bool
  deriving DecidableEq, Repr

structure State where
  hashes : MailId → Option Hash
  queue : List MailId
  tasks : List (MailId × Phase)
  /-- What was enqueued; the ids are random. -/
  emails : List Email
  /-- The calls of the provider, the newest first. -/
  attempts : List Attempt
  /-- The hashes that have expired. -/
  expired : MailId → Bool

/-- `_retry_limit` -/
def retryLimit : Nat := 3

namespace State

def empty : State := ⟨fun _ => none, [], [], [], [], fun _ => false⟩

def put (id : MailId) (hash : Option Hash) (s : State) : State :=
  { s with hashes := Function.update s.hashes id hash }

/-- `HSET` -/
def hset (id : MailId) (f : Hash → Hash) (s : State) : State :=
  s.put id (some (f ((s.hashes id).getD {})))

/-- `EXPIRE` -/
def setExpiry (id : MailId) (s : State) : State :=
  match s.hashes id with
  | none => s
  | some data => s.put id (some { data with expires := true })

def push (id : MailId) (s : State) : State := { s with queue := lpush id s.queue }

def task (id : MailId) (phase : Phase) (s : State) : State :=
  { s with tasks := (id, phase) :: s.tasks }

/-- The next command of a task, and what the task goes on with. -/
def resume (id : MailId) (ok : Bool) (now : Time) (s : State) : Phase → State
  | .stored => (s.setExpiry id).task id .expiring
  | .expiring => s.push id
  | .popped =>
    match s.hashes id with
    | none => s
    | some data => s.task id (.read data)
  | .read data =>
    (s.hset id fun data => { data with status := some .sending }).task id (.sending data)
  | .sending data =>
    { s with attempts := ⟨id, data.email, ok⟩ :: s.attempts }.task id
      (if ok then .succeeded else .failed data)
  | .succeeded =>
    (s.hset id fun data => { data with status := some .sent }).task id .markedSent
  | .markedSent => s.hset id fun data => { data with sentAt := some now }
  | .failed data =>
    if data.retries + 1 ≤ retryLimit then
      (s.hset id fun old => { old with retryCount := some (data.retries + 1) }).task id
        (.counted (data.retries + 1))
    else s.hset id fun data => { data with status := some .failed }
  | .counted n =>
    (s.hset id fun data => { data with status := some .pending }).task id (.pending n)
  | .pending n => (s.hset id fun data => { data with lastRetry := some now }).task id (.dated n)
  | .dated n => s.task id (.delayed (60 * 2 ^ (n - 1)))
  | .delayed _ => s.push id

end State

inductive Event where
  | enqueue (email : Email) (now : Time)
  /-- `BRPOP` by some worker. -/
  | pop
  | resume (id : MailId) (phase : Phase) (ok : Bool) (now : Time)
  /-- A command raises, or the process of a task ends. -/
  | dies (id : MailId) (phase : Phase)
  | expire (id : MailId)
  deriving Repr

namespace State

def after (s : State) : Event → State
  | .enqueue email now =>
    ({ s with emails := s.emails ++ [email] }.hset s.emails.length fun _ =>
      { email := some email, createdAt := some now, status := some .pending,
        retryCount := some 0 }).task s.emails.length .stored
  | .pop =>
    match rpop s.queue with
    | none => s
    | some (id, rest) => { s with queue := rest }.task id .popped
  | .resume id phase ok now =>
    if (id, phase) ∈ s.tasks then
      { s with tasks := s.tasks.erase (id, phase) }.resume id ok now phase
    else s
  | .dies id phase => { s with tasks := s.tasks.erase (id, phase) }
  | .expire id =>
    match s.hashes id with
    | none => s
    | some data =>
      if data.expires then
        { s.put id none with expired := Function.update s.expired id true }
      else s

/-- The state after some events. -/
def run (events : List Event) : State := events.foldl after empty

end State

end Soms.Mail
