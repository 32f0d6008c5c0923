import Mathlib.Data.List.MinMax
import Soms.Library.Run
import Soms.Scores.Ranking

/-!
# The system

Requests, background tasks, staff actions and synchronisations are transactions
that the row locks put in some order.  A transaction that raises is rolled back.
The background task and the retry of a score may run any number of times, at any
time after the score was committed, or never.
-/

namespace Soms.Scores

open Txn

inductive Event where
  /-- An account gets the statistics of a mode. -/
  | register (uid : UserId) (mode : GameMode)
  /-- A difficulty is fetched from upstream for the first time. -/
  | fetch (b : BeatmapId) (u : Upstream)
  /-- `POST /beatmaps/{beatmap_id}/solo/scores` -/
  | createSolo (now : Time) (uid : UserId) (b : BeatmapId) (checksum : Checksum)
    (clientVersion : String)
  /-- `POST /rooms/{room_id}/playlist/{playlist_id}/scores` -/
  | createPlaylist (now : Time) (roomId : RoomId) (itemId : ItemId) (uid : UserId) (b : BeatmapId)
    (checksum : Checksum) (clientVersion : String)
  /-- `PUT /beatmaps/{beatmap_id}/solo/scores/{token}` -/
  | submitSolo (now : Time) (uid : UserId) (tokenId : TokenId) (info : SubmissionInfo)
  /-- `PUT /rooms/{room_id}/playlist/{playlist_id}/scores/{token}` -/
  | submitPlaylist (now : Time) (view : RoomView) (roomId : RoomId) (itemId : ItemId)
    (uid : UserId) (tokenId : TokenId) (info : SubmissionInfo)
  /-- A delivery of the background task, or a retry of an unprocessed score. -/
  | finalize (calculated : Option ℚ) (sid : ScoreId)
  /-- A retry of a processed score. -/
  | retry (calculated : Option ℚ) (sid : ScoreId)
  | applyRank (setId : SetId) (b : Option BeatmapId) (status : BeatmapRankStatus)
    (leaderboardEnabled ppEnabled : Option Bool) (forceUnranked replace : Bool)
  | unrank (setId : SetId) (b : Option BeatmapId) (replace : Bool)
  | clearRank (setId : SetId) (b : Option BeatmapId)
  | resolveEvent (setId : SetId) (b : BeatmapId)
  /-- One difficulty of a synchronised set. -/
  | sync (setId : SetId) (b : BeatmapId) (u : Option Upstream)

/-- A server with the attempts its rooms allow. -/
structure Deployment extends Server where
  maxAttempts : RoomId → Option Nat

variable (srv : Deployment)

/-- The transaction of an event. -/
def serve : Event → Act Unit
  | .register uid mode => do
    refuse (fun s => (s.stats (uid, mode)).isSome) .skipped
    write fun s => { s with stats := Function.update s.stats (uid, mode) (some {}) }
  | .fetch b u => fetchBeatmap b u
  | .createSolo now uid b checksum version => do
    let _ ← createSoloScore now uid b checksum version
  | .createPlaylist now roomId itemId uid b checksum version => do
    let _ ← createPlaylistScore now (srv.maxAttempts roomId) roomId itemId uid b checksum version
  | .submitSolo now uid tokenId info => do
    let _ ← submitScore srv.toServer now uid tokenId info
  | .submitPlaylist now view roomId itemId uid tokenId info =>
    submitPlaylistScore srv.toServer now view roomId itemId uid tokenId info
  | .finalize calculated sid => finalizeScore srv.toServer calculated sid
  | .retry calculated sid => retryPp srv.toServer calculated sid
  | .applyRank setId b status leaderboardEnabled ppEnabled forceUnranked replace =>
    applyLocalRank srv.toServer setId b status leaderboardEnabled ppEnabled forceUnranked replace
  | .unrank setId b replace => applyLocalUnrank srv.toServer setId b replace
  | .clearRank setId b => clearLocalRank srv.toServer setId b
  | .resolveEvent setId b => resolveRankingEvent setId b
  | .sync setId b u => syncBeatmap srv.toServer setId b u

/-- One committed transaction. -/
def Step (s : State) (e : Event) (t : State) : Prop := ∃ u, serve srv e s = (.ok u, t)

/-- The runs from the empty tables whose steps satisfy `P`, with their history. -/
abbrev Runs (P : State → Event → Prop) (h : List (Event × State)) (s : State) : Prop :=
  Trace (Step srv) P State.empty h s

/-! ## Worked runs -/

/-- The state after the transaction of an event. -/
def State.after (s : State) (e : Event) : State := (serve srv e s).2

variable {srv}

theorem Runs.after {P : State → Event → Prop} {h : List (Event × State)} {s : State}
    (hrun : Runs srv P h s) (e : Event) (allowed : P s e)
    (accepted : (serve srv e s).1.toBool = true) :
    Runs srv P ((e, s.after srv e) :: h) (s.after srv e) := by
  refine hrun.tail allowed ?_
  cases hserve : serve srv e s with
  | mk result t =>
    cases result with
    | ok u => exact ⟨u, by rw [State.after, hserve]⟩
    | error _ => simp [hserve, Except.toBool] at accepted

/-- A server without multipliers that takes accuracy and rank from the client. -/
def plainServer : Deployment where
  modMultiplier _ _ _ := 1
  calculateAccuracy _ := none
  calculateRank _ := none
  modsCanGetPp _ _ := true
  userPp _ := (0, 0)
  first rows := rows.argmax (·.totalScore)
  first_none _ h := List.argmax_eq_none.mp h
  first_some _ _ h := ⟨List.argmax_mem h, fun _ hmem => List.le_of_mem_argmax hmem h⟩
  maxAttempts _ := some 1

/-- The first event of a run is taken from the empty tables. -/
theorem Runs.start {P : State → Event → Prop} (e : Event) (allowed : P .empty e)
    (accepted : (serve srv e .empty).1.toBool = true) :
    Runs srv P [(e, State.empty.after srv e)] (State.empty.after srv e) := by
  have hrun : Runs srv P [] State.empty := .refl
  exact hrun.after e allowed accepted

/-- The run of some events, the newest first, none of which is refused. -/
theorem Runs.of_accepted {P : State → Event → Prop} (es : List Event)
    (haccepted : Every (fun past e _ => P (endState State.empty past) e ∧
      (serve srv e (endState State.empty past)).1.toBool = true)
      (historyOf (State.after srv) State.empty es)) :
    Runs srv P (historyOf (State.after srv) State.empty es)
      (endState State.empty (historyOf (State.after srv) State.empty es)) := by
  induction es with
  | nil => exact .refl
  | cons e past ih => exact (ih haccepted.1).after e haccepted.2.1 haccepted.2.2

/-- A full combo. -/
def fullCombo : SubmissionInfo where
  rank := .x
  totalScore := 1000
  totalScoreWithoutMods := 1000
  accuracy := 1
  maxCombo := 10
  rulesetId := 0
  passed := true
  mods := []
  statistics := fun _ => 10
  maximumStatistics := fun _ => 10

/-- The ranked map 1 of the set 1. -/
def mapFetched : Event := .fetch 1 { setId := 1, checksum := 4, status := .ranked }

/-- A full combo with a total and mods. -/
def playOf (total : Nat) (acronyms : List String) : SubmissionInfo :=
  { fullCombo with
    totalScore := total, totalScoreWithoutMods := total
    mods := acronyms.map fun acronym => { acronym } }

/-- User 7 plays the map 1, the newest play and event first.  Each play is finalised before the
next. -/
def soloPlays : List SubmissionInfo → List Event
  | [] => [.register 7 .osu, mapFetched]
  | info :: earlier =>
    .finalize none (earlier.length + 1) :: .submitSolo 9 7 (earlier.length + 1) info ::
      .createSolo 0 7 1 4 "" :: soloPlays earlier

/-- User 7 asks for a token for the item 3 of the room 5. -/
def tokenAsked : Event := .createPlaylist 0 5 3 7 1 4 ""

/-- The token is the first. -/
def tokenIssued : State :=
  ((State.empty.after plainServer mapFetched).after plainServer (.register 7 .osu)).after plainServer
    tokenAsked

theorem runs_tokenIssued {P : State → Event → Prop}
    (allowed : ∀ s, P s mapFetched ∧ P s (.register 7 .osu) ∧ P s tokenAsked) :
    ∃ h, Runs plainServer P h tokenIssued :=
  ⟨_, ((Runs.start _ (allowed _).1 (by decide +kernel)).after _ (allowed _).2.1
    (by decide +kernel)).after _ (allowed _).2.2 (by decide +kernel)⟩

end Soms.Scores
