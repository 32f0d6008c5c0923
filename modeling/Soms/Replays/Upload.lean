import Soms.Library.Run
import Soms.Library.Txn
import Soms.Replays.Retention

/-!
# One replay per slot

`POST /scores/replay` of `router/lio.py` on the score rows and the storage
service.  The candidates of an upload are locked, so that uploads for one user and
beatmap follow one another.
-/

namespace Soms.Replays

open Txn

/-- The score rows and the files of the storage service. -/
structure Server where
  scores : Table Score
  files : Path → Option (List Nat)

structure ReplayDataRequest where
  scoreId : ScoreId
  userId : UserId
  mreplay : String
  beatmapId : BeatmapId

inductive ErrorType where
  | scoreNotFound | badEncoding | storage | database
  deriving DecidableEq, Repr

/-- What works while a request is handled. -/
structure Services where
  writes : Bool := true
  commits : Bool := true
  deletes : Path → Bool := fun _ => true

/-! ## Decoding -/

/-- The value of a digit of base 64. -/
def sextet (c : Char) : Option Nat :=
  if 'A' ≤ c ∧ c ≤ 'Z' then some (c.toNat - 65)
  else if 'a' ≤ c ∧ c ≤ 'z' then some (c.toNat - 71)
  else if '0' ≤ c ∧ c ≤ '9' then some (c.toNat + 4)
  else if c = '+' then some 62
  else if c = '/' then some 63
  else none

/-- `base64.b64decode(..., validate=True)` -/
def b64decode : List Char → Option (List Nat)
  | [] => some []
  | [a, b, '=', '='] => do
    let n := 64 * (← sextet a) + (← sextet b)
    pure [n / 16]
  | [a, b, c, '='] => do
    let n := 4096 * (← sextet a) + 64 * (← sextet b) + (← sextet c)
    pure [n / 1024, n / 4 % 256]
  | a :: b :: c :: d :: rest => do
    let n := 262144 * (← sextet a) + 4096 * (← sextet b) + 64 * (← sextet c) + (← sextet d)
    let bytes ← b64decode rest
    pure (n / 65536 :: n / 256 % 256 :: n % 256 :: bytes)
  | _ => none

/-! ## The endpoint -/

namespace Server

/-- `lock_replay_candidates` -/
def lockReplayCandidates (uid : UserId) (bid : BeatmapId) (s : Server) : List Candidate :=
  s.scores.toList.filter fun x => decide (x.2.userId = uid) && decide (x.2.beatmapId = bid)

def setReplay (k : ScoreId) (available : Bool) (s : Server) : Server :=
  { s with scores := s.scores.modify k fun score => { score with hasReplay := available } }

def writeFile (path : Path) (bytes : List Nat) (s : Server) : Server :=
  { s with files := Function.update s.files path (some bytes) }

def dropFile (path : Path) (s : Server) : Server :=
  { s with files := Function.update s.files path none }

/-- What an upload that stores commits. -/
def replaceReplays (k : ScoreId) (superseded : List ScoreId) (s : Server) : Server :=
  superseded.foldl (fun s j => s.setReplay j false) (s.setReplay k true)

end Server

open Server

/-- `StorageService.delete_file` -/
def deleteFile (services : Services) (path : Path) : Txn Server ErrorType Unit := do
  refuse (fun _ => ¬ services.deletes path) .storage
  write (dropFile path)

/-- `_discard_replay` -/
def discardReplay (services : Services) (score : Candidate) : Txn Server ErrorType Unit := do
  Txn.when score.2.hasReplay (do
    refuse (fun _ => ¬ services.commits) .database
    write (setReplay score.1 false))
  deleteFile services (score.2.replayFilename score.1)

/-- `save_replay`: whether the replay was stored. -/
def saveReplay (apiMods : ApiMods) (services : Services) (req : ReplayDataRequest) :
    Txn Server ErrorType Bool := do
  let candidates ← read (lockReplayCandidates req.userId req.beatmapId)
  let score ← require (fun _ => candidates.find? fun x => x.1 = req.scoreId) .scoreNotFound
  let winner := bestReplayScore apiMods candidates score
  if winner.map Prod.fst ≠ some score.1 then do
    discardReplay services score
    pure false
  else do
    let superseded :=
      (replayCombinationScores apiMods candidates score).filter fun x => x.1 ≠ score.1
    let path := score.2.replayFilename score.1
    let bytes ← require (fun _ => b64decode req.mreplay.toList) .badEncoding
    refuse (fun _ => ¬ services.writes) .storage
    write (writeFile path bytes)
    if services.commits then do
      write (replaceReplays score.1 (superseded.map Prod.fst))
      -- the replays that are superseded are out of sight before their files go
      superseded.forM fun x => deleteFile services (x.2.replayFilename x.1)
      pure true
    else do
      Txn.when (!score.2.hasReplay) (deleteFile services path)
      raise .database

/-! ## The system -/

inductive Event where
  /-- A score is submitted; it has no replay yet. -/
  | submit (score : Score)
  /-- A replay is uploaded. -/
  | upload (services : Services) (req : ReplayDataRequest)

/-- The server after an event. -/
def Server.after (apiMods : ApiMods) (s : Server) : Event → Server
  | .submit score => { s with scores := s.scores.insert { score with hasReplay := false } }
  | .upload services req => (saveReplay apiMods services req s).2

/-- Neither scores nor files. -/
def Server.empty : Server := ⟨.empty, fun _ => none⟩

inductive Step (apiMods : ApiMods) : Server → Event → Server → Prop
  | mk (s : Server) (e : Event) : Step apiMods s e (s.after apiMods e)

end Soms.Replays
