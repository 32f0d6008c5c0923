import Soms.Scores.Reconcile

/-!
# Submission and finalisation

`router/v2/score.py`: the tokens, the two endpoints that consume them, the
background task that finalises a score, and the periodic retry of
`tasks/recalculate_failed_score.py`.  Each is one transaction.
-/

namespace Soms.Scores

open Txn

variable (srv : Server)

/-! ## The raw score -/

/-- `SoloScoreSubmissionInfo` -/
structure SubmissionInfo where
  rank : Rank
  totalScore : Nat
  totalScoreWithoutMods : Nat
  accuracy : ℚ
  maxCombo : Int
  rulesetId : Nat
  passed : Bool
  mods : List APIMod
  statistics : ScoreStatistics
  maximumStatistics : ScoreStatistics

/-- `GameMode.to_special_mode` -/
def Settings.toSpecialMode (settings : Settings) (mode : GameMode) (mods : List APIMod) :
    GameMode :=
  let has (acronym : String) : Bool := mods.any (·.acronym == acronym)
  if settings.somsOsuAssistModes then
    if mode ≠ .osu then mode
    else if has "AP" then .osuap
    else if has "RX" then .osurx
    else mode
  else if mode ≠ .osu ∧ mode ≠ .taiko ∧ mode ≠ .fruits then mode
  else if mode = .osu ∧ has "AP" ∧ settings.enableAp then .osuap
  else if has "RX" ∧ settings.enableRx then
    match mode with
    | .taiko => .taikorx
    | .fruits => .fruitsrx
    | _ => .osurx
  else mode

/-- The row that `process_score` adds.  Its eligibility is what the effective
policy grants now, provided that the chart played is the current one. -/
def newScore (now : Time) (token : ScoreToken) (mode : GameMode) (bm : Beatmap)
    (policy : EffectivePolicy) (info : SubmissionInfo) : Score :=
  let eligible f := token.beatmapChecksum == bm.checksum && srv.grants policy f
  let sc : Score :=
    { userId := token.userId, beatmapId := token.beatmapId, mode, mods := info.mods
      passed := info.passed, rank := info.rank
      totalScore := info.totalScore, totalScoreWithoutMods := info.totalScoreWithoutMods
      accuracy := info.accuracy, maxCombo := info.maxCombo, mapMd5 := token.beatmapChecksum
      startedAt := token.createdAt, endedAt := now
      n300 := info.statistics .great, n100 := info.statistics .ok
      n50 := info.statistics .meh, nmiss := info.statistics .miss
      ngeki := info.statistics .perfect, nkatu := info.statistics .good
      nlargeTickMiss := info.statistics .largeTickMiss
      nlargeTickHit := info.statistics .largeTickHit
      nsmallTickHit := info.statistics .smallTickHit
      nsliderTailHit := info.statistics .sliderTailHit
      maximumStatistics := info.maximumStatistics
      playlistItemId := token.playlistItemId, roomId := token.roomId
      ranked := eligible .pp
      leaderboardEligible := eligible .leaderboard
      rankedScoreEligible := eligible .rankedScore }
  let multiplier := srv.modMultiplier sc bm token.clientVersion
  let sc := { sc with totalScore := (round (sc.totalScoreWithoutMods * multiplier)).toNat }
  match srv.calculateAccuracy sc with
  | some accuracy =>
    let sc := { sc with accuracy }
    match srv.calculateRank sc with
    | some rank => { sc with rank }
    | none => sc
  | none => sc

/-- `process_score`, under the lock of the set. -/
def processScore (now : Time) (token : ScoreToken) (info : SubmissionInfo) : Act ScoreId := do
  let base ← require (fun _ => GameMode.fromInt info.rulesetId) .keyError
  let bm ← require (fun s => s.beatmaps.row token.beatmapId) .valueError
  refuse (fun s => s.sets bm.setId = false) .valueError
  let policy ← read fun s => s.effectivePolicy token.beatmapId bm
  let sid ← read fun s => s.scores.next
  let mode := srv.toSpecialMode base info.mods
  write fun s => { s with scores := s.scores.insert (newScore srv now token mode bm policy info) }
  return sid

/-- `submit_score`: the score of the token and whether it was created now. -/
def submitScore (now : Time) (uid : UserId) (tokenId : TokenId) (info : SubmissionInfo) :
    Act (ScoreId × Bool) := do
  let info := if info.passed then info else { info with rank := .f }
  let token ← require (fun s => s.tokens.row tokenId) .scoreTokenNotFound
  refuse (fun _ => token.userId ≠ uid) .scoreTokenNotFound
  match token.scoreId with
  | some sid =>
    refuse (fun s => (s.scores.row sid).all (·.userId ≠ uid)) .scoreNotFound
    return (sid, false)
  | none =>
    refuse (fun s => (s.beatmaps.row token.beatmapId).isNone) .beatmapNotFound
    let sid ← processScore srv now token info
    write fun s =>
      { s with tokens := s.tokens.modify tokenId fun t => { t with scoreId := some sid } }
    return (sid, true)

/-! ## Playlists -/

/-- `process_playlist_best_score` -/
def processPlaylistBestScore (roomId : RoomId) (itemId : ItemId) (uid : UserId) (sid : ScoreId)
    (total : Nat) (s : State) : State :=
  let rows := s.playlistBest roomId uid
  let rows :=
    if rows.any (·.playlistId == itemId) then
      rows.map fun row =>
        if row.playlistId = itemId then
          let row :=
            if (s.scores.row row.scoreId).all (!·.passed) ∨ row.totalScore < total then
              { row with scoreId := sid, totalScore := total }
            else row
          { row with attempts := row.attempts + 1 }
        else row
    else rows ++ [⟨itemId, sid, total, 1⟩]
  { s with
    playlistBest := Function.update s.playlistBest roomId
      (Function.update (s.playlistBest roomId) uid rows) }

/-- `ItemAttemptsCount.get_or_create`, which recomputes the sums of the room. -/
def updateItemAttempts (roomId : RoomId) (uid : UserId) (s : State) : State :=
  let rows := s.playlistBest roomId uid
  let scores := rows.filterMap fun row => s.scores.row row.scoreId
  let passed := scores.filter (·.passed)
  { s with
    itemAttempts := Function.update s.itemAttempts roomId <|
      Function.update (s.itemAttempts roomId) uid <| some
        { attempts := (rows.map (·.attempts)).sum
          totalScore := (rows.map (·.totalScore)).sum
          pp := (scores.map (·.pp)).sum
          completed := passed.length
          accuracy := if 0 < passed.length then (passed.map (·.accuracy)).sum / passed.length
            else 0 } }

/-- What the playlist endpoint finds of the user, the room and the item. -/
structure RoomView where
  restricted : Bool := false
  roomExists : Bool := true
  itemExists : Bool := true
  /-- `validate_somsai_score_submission` of a realtime room accepts. -/
  admitted : Bool := true
  deriving DecidableEq, Repr

/-- `_submit_playlist_score_once` -/
def submitPlaylistScore (now : Time) (view : RoomView) (roomId : RoomId) (itemId : ItemId)
    (uid : UserId) (tokenId : TokenId) (info : SubmissionInfo) : Act Unit := do
  refuse (fun _ => view.restricted) .accountRestricted
  refuse (fun _ => view.roomExists = false) .roomNotFound
  refuse (fun _ => view.itemExists = false) .playlistItemNotFound
  let token ← require (fun s => s.tokens.row tokenId) .scoreTokenNotFound
  refuse (fun _ => token.userId ≠ uid) .scoreTokenUserMismatch
  refuse (fun _ => token.playlistItemId ≠ some itemId) .scoreTokenPlaylistItemMismatch
  refuse (fun _ => token.roomId ≠ some roomId) .scoreTokenRoomMismatch
  refuse (fun _ => view.admitted = false) .submissionRefused
  let (sid, created) ← submitScore srv now uid tokenId info
  when created do
    let sc ← require (fun s => s.scores.row sid) .scoreNotFound
    write (processPlaylistBestScore roomId itemId uid sid sc.totalScore)
    write (updateItemAttempts roomId uid)

/-! ## Tokens -/

/-- `create_solo_score`, after its checks of the client and the ruleset. -/
def createSoloScore (now : Time) (uid : UserId) (b : BeatmapId) (checksum : Checksum)
    (clientVersion : String) : Act TokenId := do
  refuse (fun s => (s.beatmaps.row b).isNone) .beatmapNotFound
  let id ← read fun s => s.tokens.next
  let token : ScoreToken :=
    { userId := uid, beatmapId := b, beatmapChecksum := checksum, createdAt := now, clientVersion }
  write fun s => { s with tokens := s.tokens.insert token }
  return id

/-- `create_playlist_score`, after its checks of the client, the ruleset, the user,
the room and the item.  `maxAttempts` is that of the room. -/
def createPlaylistScore (now : Time) (maxAttempts : Option Nat) (roomId : RoomId)
    (itemId : ItemId) (uid : UserId) (b : BeatmapId) (checksum : Checksum)
    (clientVersion : String) : Act TokenId := do
  refuse (fun s => ∃ agg ∈ s.itemAttempts roomId uid, ∃ n ∈ maxAttempts,
    n ≠ 0 ∧ n ≤ agg.attempts) .submissionRefused
  refuse (fun s => (s.beatmaps.row b).isNone) .beatmapNotFound
  let id ← read fun s => s.tokens.next
  let token : ScoreToken :=
    { userId := uid, beatmapId := b, beatmapChecksum := checksum, createdAt := now
      roomId := some roomId, playlistItemId := some itemId, clientVersion }
  write fun s => { s with tokens := s.tokens.insert token }
  return id

/-! ## Finalisation -/

/-- The score no longer gives PP, a leaderboard row or ranked score. -/
def Score.ineligible (sc : Score) : Score :=
  { sc with ranked := false, leaderboardEligible := false, rankedScoreEligible := false }

/-- The score as a finalisation sees it: a play of another revision of the chart
gives nothing. -/
def Score.checked (sc : Score) (bm : Beatmap) : Score :=
  if sc.mapMd5 = bm.checksum then sc else sc.ineligible

/-- `process_user`: the PP, the statistics and the mark that the score is
processed. -/
def processUser (calculated : Option ℚ) (sid : ScoreId) (sc : Score) (bm : Beatmap)
    (st : UserStatistics) (s : State) : State :=
  let policy := s.effectivePolicy sc.beatmapId bm
  let s :=
    if sc.ranked && srv.grants policy .pp then
      (processScorePp srv calculated sid sc s).getD s
    else s
  let s := processStatistics srv sid sc bm.totalLength policy st s
  { s with scores := s.scores.modify sid fun sc => { sc with processed := true } }

/-- `_process_user` and the part of `recalculate_failed_score` for a score that is
not processed.  An early return leaves everything as it is. -/
def finalizeScore (calculated : Option ℚ) (sid : ScoreId) : Act Unit := do
  let sc ← require (fun s => s.scores.row sid) .skipped
  let bm ← require (fun s => s.beatmaps.row sc.beatmapId) .skipped
  refuse (fun s => s.sets bm.setId = false) .skipped
  let st ← require (fun s => s.stats sc.key.userMode) .skipped
  refuse (fun _ => sc.processed) .skipped
  refuse (fun s => (s.tokens.find fun t => t.scoreId == some sid).isNone) .skipped
  let sc := sc.checked bm
  write fun s => { s with scores := s.scores.modify sid fun _ => sc }
  write (processUser srv calculated sid sc bm st)

/-- The part of `recalculate_failed_score` for a processed score. -/
def retryPp (calculated : Option ℚ) (sid : ScoreId) : Act Unit := do
  let sc ← require (fun s => s.scores.row sid) .skipped
  let bm ← require (fun s => s.beatmaps.row sc.beatmapId) .skipped
  refuse (fun s => s.sets bm.setId = false) .skipped
  let st ← require (fun s => s.stats sc.key.userMode) .skipped
  refuse (fun _ => sc.processed = false) .skipped
  let policy ← read fun s => s.effectivePolicy sc.beatmapId bm
  let sc := sc.checked bm
  write fun s => { s with scores := s.scores.modify sid fun _ => sc }
  if sc.ranked && srv.grants policy .pp then
    let t ← require (processScorePp srv calculated sid sc) .ppFailed
    write fun _ => t
    write fun s =>
      let userPp := srv.userPp (s.ppRows sc.key.userMode)
      let st := { st with pp := userPp.1, hitAccuracy := userPp.2 }
      { s with stats := Function.update s.stats sc.key.userMode (some st) }
  else pure ()

end Soms.Scores
