import Soms.Daily.Calendar
import Soms.Library.Bytes
import Soms.Scores.Data

/-!
# Replay files

The reader of `.osr` files in `service/score_import_service.py`.  An offset into the content is the
rest of the content from there on.
-/

namespace Soms.Imports

open Reader
open Soms.Scores (GameMode Time)

/-- A `ScoreImportError` with its text. -/
abbrev ScoreImportError := String

abbrev OsrReader (α : Type) : Type := Reader UInt8 ScoreImportError α

def maxReplayBytes : Nat := 32 * 1024 * 1024

def maxOsrStringBytes : Nat := 64

structure OsrReplayHeader where
  ruleset : GameMode
  clientVersion : Nat
  beatmapChecksum : String
  playerName : String := ""
  deriving DecidableEq

structure ParsedOsrScore where
  header : OsrReplayHeader
  replayHash : String
  n300 : Nat
  n100 : Nat
  n50 : Nat
  ngeki : Nat
  nkatu : Nat
  nmiss : Nat
  totalScore : Int
  maxCombo : Nat
  perfectCombo : Bool
  legacyMods : Nat
  endedAt : Time
  onlineScoreId : Option Int
  deriving DecidableEq

/-! ## Strings -/

/-- `_read_osr_string` -/
def readOsrString : OsrReader String := do
  let marker ← next "The official replay header is truncated"
  if marker = 0 then pure ""
  else do
    refuse (marker ≠ 0x0B) "The official replay contains an invalid string marker"
    let length ← readUleb128 "The official replay header is truncated"
      "The official replay contains an invalid string length" 5 0 0
    refuse (maxOsrStringBytes < length) "The official replay contains an invalid string length"
    let encoded ← take length "The official replay contains an invalid string length"
    match ofUtf8 encoded with
    | some text => pure text
    | none => fail "The official replay header is not valid UTF-8"

/-- The loop of `_encode_osr_string` over the length. -/
def encodedLength (length : Nat) : Bytes :=
  if length = 0 then []
  else
    UInt8.ofNat ((length &&& 0x7F) ||| if length >>> 7 ≠ 0 then 0x80 else 0) ::
      encodedLength (length >>> 7)
termination_by length
decreasing_by
  rw [Nat.shiftRight_eq_div_pow]
  omega

/-- `_encode_osr_string` -/
def encodeOsrString (value : String) : Except ScoreImportError Bytes :=
  let encoded := utf8 value
  if maxOsrStringBytes < encoded.length then
    .error "The replacement replay username is too long"
  else if encoded = [] then .ok [0]
  else .ok (0x0B :: (encodedLength encoded.length ++ encoded))

/-! ## Numbers -/

/-- `_read_osr_number` with an unsigned format. -/
def readUnsigned (size : Nat) (description : String) : OsrReader Nat := do
  let bytes ← take size ("The replay is truncated before " ++ description)
  pure (leNat bytes)

/-- `_read_osr_number` with a signed format. -/
def readSigned (size : Nat) (description : String) : OsrReader Int := do
  let bytes ← take size ("The replay is truncated before " ++ description)
  pure (leInt bytes)

/-! ## The file -/

/-- `MD5_PATTERN` -/
def isMd5 (s : String) : Bool :=
  s.toList.length == 32 && s.toList.all fun c => c.isDigit || ('a' ≤ c && c ≤ 'f')

/-- `parse_osr_header`.  The letters that `lower` maps to hexadecimal digits are ASCII. -/
def parseOsrHeader (content : Bytes) : Except ScoreImportError OsrReplayHeader :=
  let modeId := leNat (content.take 1)
  let clientVersion := leNat ((content.drop 1).take 4)
  if content.length < 7 then .error "The official replay header is truncated"
  else if 3 < modeId then .error "The official replay contains an unsupported ruleset"
  else do
    let (beatmapChecksum, rest) ← readOsrString (content.drop 5)
    let normalisedChecksum := beatmapChecksum.toLower
    if isMd5 normalisedChecksum = false then
      .error "The official replay does not contain a valid beatmap checksum"
    else do
      let playerName ← if rest = [] then .ok "" else (readOsrString rest).map (·.1)
      match GameMode.fromInt modeId with
      | some ruleset =>
        .ok { ruleset, clientVersion, beatmapChecksum := normalisedChecksum, playerName }
      | none => .error "The official replay contains an unsupported ruleset"

/-- The online id, of eight bytes, of four or absent by the version. -/
def readOnlineScoreId (clientVersion : Nat) : OsrReader (Option Int) :=
  if 20140721 ≤ clientVersion then do
    let rawOnlineId ← readSigned 8 "online score ID"
    pure (if 0 < rawOnlineId then some rawOnlineId else none)
  else if 20121008 ≤ clientVersion then do
    let rawOnlineId ← readSigned 4 "online score ID"
    pure (if 0 < rawOnlineId then some rawOnlineId else none)
  else pure none

/-- A number of ticks since the first of January of the year 1, in microseconds since 1970. -/
def timeOfTicks (ticks : Int) : Time := ticks / 10 + Daily.yearStart 1 * Daily.dayLength

/-- What stands between the player name and the online id. -/
structure ReplayData where
  replayHash : String
  n300 : Nat
  n100 : Nat
  n50 : Nat
  ngeki : Nat
  nkatu : Nat
  nmiss : Nat
  totalScore : Int
  maxCombo : Nat
  perfectComboRaw : Nat
  legacyMods : Nat
  ticks : Int

/-- `parse_uploaded_osr` from the replay hash to the end of the frames. -/
def readReplayData : OsrReader ReplayData := do
  let replayHash ← readOsrString
  let n300 ← readUnsigned 2 "300 count"
  let n100 ← readUnsigned 2 "100 count"
  let n50 ← readUnsigned 2 "50 count"
  let ngeki ← readUnsigned 2 "geki count"
  let nkatu ← readUnsigned 2 "katu count"
  let nmiss ← readUnsigned 2 "miss count"
  let totalScore ← readSigned 4 "total score"
  let maxCombo ← readUnsigned 2 "maximum combo"
  let perfectComboRaw ← readUnsigned 1 "perfect-combo flag"
  let legacyMods ← readUnsigned 4 "mods"
  let _ ← readOsrString -- life-bar graph
  let ticks ← readSigned 8 "timestamp"
  let replayLength ← readSigned 4 "replay frame length"
  refuse (totalScore < 0) "The uploaded replay contains a negative total score"
  refuse (1 < perfectComboRaw) "The uploaded replay contains an invalid perfect-combo flag"
  refuse (replayLength < 0) "The uploaded replay contains an invalid frame length"
  let _ ← take replayLength.toNat "The uploaded replay contains an invalid frame length"
  pure
    { replayHash, n300, n100, n50, ngeki, nkatu, nmiss, totalScore, maxCombo, perfectComboRaw,
      legacyMods, ticks }

/-- The score of what was read. -/
def ReplayData.score (data : ReplayData) (header : OsrReplayHeader) (playerName : String)
    (onlineScoreId : Option Int) : ParsedOsrScore where
  header := { header with playerName }
  replayHash := data.replayHash
  n300 := data.n300
  n100 := data.n100
  n50 := data.n50
  ngeki := data.ngeki
  nkatu := data.nkatu
  nmiss := data.nmiss
  totalScore := data.totalScore
  maxCombo := data.maxCombo
  perfectCombo := data.perfectComboRaw != 0
  legacyMods := data.legacyMods
  endedAt := timeOfTicks data.ticks
  onlineScoreId

/-- `parse_uploaded_osr` from the checksum on. -/
def readScore (now : Time) (header : OsrReplayHeader) : OsrReader ParsedOsrScore := do
  let _ ← readOsrString
  let playerName ← readOsrString
  let data ← readReplayData
  let onlineScoreId ← readOnlineScoreId header.clientVersion
  let endedAt := timeOfTicks data.ticks
  refuse (endedAt < Daily.yearStart 1 * Daily.dayLength ∨
    Daily.yearStart 10000 * Daily.dayLength ≤ endedAt)
    "The uploaded replay contains an invalid timestamp"
  refuse (Daily.year (Daily.date endedAt) < 2007 ∨ now + Daily.dayLength < endedAt)
    "The uploaded replay contains an implausible timestamp"
  pure (data.score header playerName onlineScoreId)

/-- `parse_uploaded_osr` -/
def parseUploadedOsr (now : Time) (content : Bytes) : Except ScoreImportError ParsedOsrScore :=
  if content = [] then .error "The uploaded replay is empty"
  else if maxReplayBytes < content.length then
    .error "The uploaded replay exceeds the 32 MiB safety limit"
  else do
    let header ← parseOsrHeader content
    let (score, _) ← readScore now header (content.drop 5)
    .ok score

/-- `rewrite_osr_player_name` -/
def rewriteOsrPlayerName (now : Time) (content : Bytes) (playerName : String) :
    Except ScoreImportError Bytes := do
  let _ ← parseUploadedOsr now content
  let (_, fromName) ← readOsrString (content.drop 5)
  let (_, afterName) ← readOsrString fromName
  let encoded ← encodeOsrString playerName
  pure (content.take (content.length - fromName.length) ++ encoded ++ afterName)

end Soms.Imports
