import Soms.Library.RedisList
import Soms.Scores.System

/-!
# The retry queue

`tasks/recalculate_failed_score.py`: the two Redis lists of score ids and the worker
that takes ids from one to the other, retries them and acknowledges them.  Every
command on Redis is a step of its own, and the worker may be cut off between any two
of them.
-/

namespace Soms.Retries

open Soms.Scores RedisList

/-- A deployment with what its PP calculation gives for a score when it succeeds, and
an accuracy and PP of zero for a user without `BestScore` rows. -/
structure Service extends Deployment where
  performance : ScoreId → ℚ
  userPp_none : userPp (fun _ => none) = (0, 0)

/-! ## A pass over one id -/

/-- What the PP calculation does if it is run. -/
inductive Calculation where
  | succeeds | fails | noBeatmap
  deriving DecidableEq, Repr

/-- What happens around one pass. -/
structure Attempt where
  calculation : Calculation := .succeeds
  /-- An exception before the commit. -/
  raises : Bool := false
  /-- An exception while the caches are invalidated. -/
  cachesFail : Bool := false
  deriving DecidableEq, Repr

/-- How a pass ends. -/
inductive Outcome where
  /-- A row it needs is not there. -/
  | skipped
  /-- `NoBeatmapError` -/
  | dropped
  /-- The work was committed. -/
  | finished
  /-- `retry_needed` -/
  | retry
  deriving DecidableEq, Repr

def Outcome.retryNeeded : Outcome → Bool
  | .retry => true
  | _ => false

variable (srv : Service)

/-- What the calculation returns in an attempt. -/
def Service.calculated (a : Attempt) (sid : ScoreId) : Option ℚ :=
  match a.calculation with
  | .succeeds => some (srv.performance sid)
  | _ => none

/-- What `process_user` returns: the PP is there or is not due. -/
def ppReady (a : Attempt) (sid : ScoreId) (sc : Score) (bm : Beatmap) (s : State) : Bool :=
  !((sc.checked bm).ranked && srv.grants (s.effectivePolicy sc.beatmapId bm) .pp) ||
    (processScorePp srv.toServer (srv.calculated a sid) sid (sc.checked bm) s).isSome

/-- `pp_allowed` -/
def ppAllowed (sc : Score) (bm : Beatmap) (s : State) : Bool :=
  (sc.checked bm).ranked && srv.grants (s.effectivePolicy sc.beatmapId bm) .pp

/-- The body of the loop of `recalculate_failed_score` for one id, up to its `finally`. -/
def passOver (a : Attempt) (sid : ScoreId) (s : State) : Outcome × State :=
  if a.raises then (.retry, s)
  else
    match s.scores.row sid with
    | none => (.skipped, s)
    | some sc =>
      match s.beatmaps.row sc.beatmapId with
      | none => (.skipped, s)
      | some bm =>
        if s.sets bm.setId = false then (.skipped, s)
        else if (s.stats sc.key.userMode).isNone then (.skipped, s)
        else if sc.processed = false then
          if (s.tokens.find fun t => t.scoreId == some sid).isNone then (.retry, s)
          else
            (if ppReady srv a sid sc bm s && !a.cachesFail then .finished else .retry,
              (finalizeScore srv.toServer (srv.calculated a sid) sid s).2)
        else
          match retryPp srv.toServer (srv.calculated a sid) sid s with
          | (.ok _, t) =>
            (if ppAllowed srv sc bm s && a.cachesFail then .retry else .finished, t)
          | (.error _, _) =>
            -- the session is rolled back
            (if a.calculation = .noBeatmap then .dropped else .retry, s)

/-! ## The system -/

/-- Where the worker is. -/
inductive Phase where
  | idle
  /-- Moving claims of an earlier run back to the queue. -/
  | recovering
  | claiming
  | working (sid : ScoreId)
  /-- In the `finally` of a pass. -/
  | closing (sid : ScoreId) (retryNeeded : Bool)
  /-- Moving deferred failures back to the queue. -/
  | givingBack
  deriving DecidableEq, Repr

structure System where
  queue : List ScoreId
  processing : List ScoreId
  phase : Phase
  tables : State

inductive Event where
  /-- Another transaction of the server. -/
  | serve (e : Scores.Event)
  /-- `_process_score_pp` and other producers. -/
  | push (sid : ScoreId)
  /-- `enqueue_missing_score_retries` for one id, with the lists as its two `LPOS`
  commands found them. -/
  | enqueueMissing (queued processing : List ScoreId) (sid : ScoreId)
  /-- The scheduler starts the job. -/
  | start
  /-- One command of the first loop. -/
  | recover
  | claim
  | work (a : Attempt)
  /-- `LREM` of a pass that asks for no retry, which may fail. -/
  | acknowledge (delivered : Bool)
  /-- One command of the last loop. -/
  | giveBack
  /-- The process is killed. -/
  | crash
  /-- The job is cancelled when the scheduler is shut down: no `except` of a pass takes
  the `CancelledError`, but its `finally` runs. -/
  | cancel (delivered : Bool)

/-- The `finally` of a pass. -/
def System.close (s : System) (sid : ScoreId) (retryNeeded delivered : Bool) : System :=
  if !retryNeeded && delivered then { s with processing := s.processing.erase sid } else s

/-- The system after an event.  An event for which the worker is not ready is nothing. -/
def System.after (s : System) : Event → System
  | .serve e => { s with tables := Txn.commit (serve srv.toDeployment e) s.tables }
  | .push sid => { s with queue := rpush sid s.queue }
  | .enqueueMissing queued processing sid =>
    if sid ∈ queued ∨ sid ∈ processing then s else { s with queue := rpush sid s.queue }
  | .start => if s.phase = .idle then { s with phase := .recovering } else s
  | .recover =>
    if s.phase = .recovering then
      match rpoplpush s.processing s.queue with
      | some (_, processing, queue) => { s with processing, queue }
      | none => { s with phase := .claiming }
    else s
  | .claim =>
    if s.phase = .claiming then
      match rpoplpush s.queue s.processing with
      | some (sid, queue, processing) => { s with queue, processing, phase := .working sid }
      | none => { s with phase := .givingBack }
    else s
  | .work a =>
    match s.phase with
    | .working sid =>
      let result := passOver srv a sid s.tables
      { s with tables := result.2, phase := .closing sid result.1.retryNeeded }
    | _ => s
  | .acknowledge delivered =>
    match s.phase with
    | .closing sid retryNeeded => { s.close sid retryNeeded delivered with phase := .claiming }
    | _ => s
  | .giveBack =>
    if s.phase = .givingBack then
      match rpoplpush s.processing s.queue with
      | some (_, processing, queue) => { s with processing, queue }
      | none => { s with phase := .idle }
    else s
  | .crash => { s with phase := .idle }
  | .cancel delivered =>
    match s.phase with
    | .working sid => { s.close sid false delivered with phase := .idle }
    | .closing sid retryNeeded => { s.close sid retryNeeded delivered with phase := .idle }
    | _ => { s with phase := .idle }

/-- Empty lists, no worker and empty tables. -/
def System.empty : System := ⟨[], [], .idle, State.empty⟩

/-- The retries of processed scores are the worker's own. -/
inductive Step : System → Event → System → Prop
  | mk (s : System) (e : Event) (hworker : ∀ c sid, e ≠ .serve (.retry c sid)) :
      Step s e (s.after srv e)

end Soms.Retries
