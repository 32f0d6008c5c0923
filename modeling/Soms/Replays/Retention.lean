import Mathlib.Data.List.MinMax
import Mathlib.Data.List.Sort
import Mathlib.Data.Prod.Lex
import Mathlib.Data.String.Basic
import Soms.Scores.Data

/-!
# Which score owns a replay slot

`service/replay_retention_service.py`: the solo leaderboard scores of a user on a
beatmap compete for one replay per mode and mod configuration.  Floating point
numbers are rational numbers.
-/

namespace Soms.Replays

abbrev UserId := Nat
abbrev BeatmapId := Nat
abbrev ScoreId := Nat
abbrev RoomId := Nat
abbrev ItemId := Nat
abbrev Path := String

open Soms.Scores (GameMode)

/-- `GameMode.to_base_ruleset` -/
def toBaseRuleset : GameMode → GameMode
  | .osurx | .osuap => .osu
  | .taikorx => .taiko
  | .fruitsrx => .fruits
  | mode => mode

/-- What a mod setting holds. -/
inductive Value where
  | null
  | bool (b : Bool)
  | int (n : Int)
  | float (q : ℚ)
  | str (s : String)
  deriving DecidableEq

structure APIMod where
  acronym : String
  settings : Option (List (String × Value)) := none
  deriving DecidableEq

/-- An entry of `Mod["Settings"]`. -/
structure SettingDefinition where
  name : String
  type : String
  defaultValue : Value
  deriving DecidableEq

/-- `API_MODS`: the settings of the mods of a ruleset, by ruleset id and acronym. -/
abbrev ApiMods := Nat → String → Option (List SettingDefinition)

structure Score where
  userId : UserId
  beatmapId : BeatmapId
  gamemode : GameMode
  mods : List APIMod
  totalScore : Int
  passed : Bool
  leaderboardEligible : Bool
  roomId : Option RoomId := none
  playlistItemId : Option ItemId := none
  hasReplay : Bool := false
  deriving DecidableEq

/-- `Score.replay_filename` -/
def Score.replayFilename (k : ScoreId) (score : Score) : Path :=
  "replays/" ++ k.repr ++ "_" ++ score.beatmapId.repr ++ "_" ++ score.userId.repr ++
    "_lazer_replay.osr"

theorem takeWhile_underscore (k : Nat) (rest : List Char) :
    (Nat.toDigits 10 k ++ '_' :: rest).takeWhile (fun c => !decide (c = '_')) =
      Nat.toDigits 10 k := by
  rw [List.takeWhile_append_of_pos]
  · simp
  · intro c hc
    have hne : c ≠ '_' := fun hc' => Nat.underscore_not_in_toDigits (hc' ▸ hc)
    simp [hne]

/-- The file of a score names its id. -/
theorem Score.replayFilename_inj {k k' : ScoreId} {score score' : Score}
    (h : score.replayFilename k = score'.replayFilename k') : k = k' := by
  have hchars := congrArg
    (fun path : Path => (path.toList.drop 8).takeWhile fun c => !decide (c = '_')) h
  simp only [replayFilename, String.toList_append] at hchars
  have hdigits : Nat.toDigits 10 k = Nat.toDigits 10 k' := by
    simpa [takeWhile_underscore] using hchars
  rw [← Nat.ofDigitChars_ten_toDigits (n := k), hdigits, Nat.ofDigitChars_ten_toDigits]

/-! ## The mod configuration -/

/-- `_normalise_setting_value` -/
def normaliseSettingValue (value : Value) (settingType : String) : Value :=
  match value with
  | .int n => if settingType = "number" then .float n else .int n
  | value => value

/-- Four hexadecimal digits. -/
def hex4 (n : Nat) : String :=
  String.ofList ((Nat.toDigits 16 (n % 65536 + 65536)).drop 1)

/-- A character in a JSON string with `ensure_ascii`. -/
def escape (c : Char) : String :=
  if c = '"' then "\\\""
  else if c = '\\' then "\\\\"
  else if c = '\n' then "\\n"
  else if c = '\r' then "\\r"
  else if c = '\t' then "\\t"
  else if c.toNat = 8 then "\\b"
  else if c.toNat = 12 then "\\f"
  else if 32 ≤ c.toNat ∧ c.toNat ≤ 126 then String.singleton c
  else if c.toNat < 65536 then "\\u" ++ hex4 c.toNat
  else "\\u" ++ hex4 (55296 + (c.toNat - 65536) / 1024) ++
    "\\u" ++ hex4 (56320 + (c.toNat - 65536) % 1024)

def dumpsString (s : String) : String := "\"" ++ String.join (s.toList.map escape) ++ "\""

/-- `json.dumps` of a value.  A float is written as its fraction. -/
def Value.dumps : Value → String
  | .null => "null"
  | .bool true => "true"
  | .bool false => "false"
  | .int n => n.repr
  | .float q => q.num.repr ++ "/" ++ q.den.repr
  | .str s => dumpsString s

/-- `json.dumps` of a dictionary with `sort_keys`. -/
def dumpsSettings (settings : List (String × Value)) : String :=
  let entries := (settings.insertionSort fun x y => x.1 ≤ y.1).map fun x =>
    dumpsString x.1 ++ ":" ++ x.2.dumps
  "\x7b" ++ String.intercalate "," entries ++ "\x7d"

/-- The settings of a mod, those it leaves out at their defaults. -/
def expandSettings (definitions : List SettingDefinition) (supplied : List (String × Value)) :
    List (String × Value) :=
  (definitions.map fun item =>
    (item.name,
      normaliseSettingValue ((supplied.lookup item.name).getD item.defaultValue) item.type)) ++
  supplied.filter fun x => x.1 ∉ definitions.map (·.name)

/-- The sort key of a normalised mod: its acronym and its settings as text. -/
def normaliseMod (definitions : String → Option (List SettingDefinition)) (mod : APIMod) :
    String × String :=
  let acronym := mod.acronym.toUpper
  (acronym, dumpsSettings
    (expandSettings ((definitions acronym).getD []) (mod.settings.getD [])))

/-- `json.dumps` of a normalised mod, which has settings unless there are none. -/
def dumpsMod (mod : String × String) : String :=
  "\x7b\"acronym\":" ++ dumpsString mod.1 ++
    (if mod.2 = dumpsSettings [] then "" else ",\"settings\":" ++ mod.2) ++ "\x7d"

/-- `replay_mod_combination_key` -/
def replayModCombinationKey (apiMods : ApiMods) (gamemode : GameMode) (mods : List APIMod) :
    String :=
  let rulesetMods := apiMods (toBaseRuleset gamemode).toInt
  let normalised := (mods.map fun mod => toLex (normaliseMod rulesetMods mod)).insertionSort (· ≤ ·)
  "[" ++ String.intercalate "," (normalised.map fun mod => dumpsMod (ofLex mod)) ++ "]"

theorem insertionSort_perm {α : Type} [LinearOrder α] {l l' : List α} (h : l.Perm l') :
    l.insertionSort (· ≤ ·) = l'.insertionSort (· ≤ ·) :=
  (((List.perm_insertionSort _ l).trans h).trans (List.perm_insertionSort _ l').symm).eq_of_pairwise'
    (List.pairwise_insertionSort _ l) (List.pairwise_insertionSort _ l')

/-- The order in which the mods are listed does not matter. -/
theorem replayModCombinationKey_perm {apiMods : ApiMods} {gamemode : GameMode}
    {mods mods' : List APIMod} (h : mods.Perm mods') :
    replayModCombinationKey apiMods gamemode mods =
      replayModCombinationKey apiMods gamemode mods' := by
  simp only [replayModCombinationKey, insertionSort_perm (h.map _)]

/-- A setting given at its default is a setting left out. -/
theorem expandSettings_default {definitions : List SettingDefinition} {item : SettingDefinition}
    {supplied : List (String × Value)} (hitem : item ∈ definitions)
    (hnames : (definitions.map (·.name)).Nodup) (hout : supplied.lookup item.name = none) :
    expandSettings definitions ((item.name, item.defaultValue) :: supplied) =
      expandSettings definitions supplied := by
  unfold expandSettings
  congr 1
  · refine List.map_congr_left fun other hother => ?_
    by_cases hname : other.name = item.name
    · obtain rfl : other = item := List.inj_on_of_nodup_map hnames hother hitem hname
      simp [hout]
    · simp [List.lookup_cons, beq_false_of_ne hname]
  · rw [List.filter_cons_of_neg]
    simpa using ⟨item, hitem, rfl⟩

/-! ## The owner of a slot -/

/-- `replay_retention_eligible` -/
def replayRetentionEligible (score : Score) : Bool :=
  score.passed && score.leaderboardEligible && score.roomId.isNone && score.playlistItemId.isNone

/-- A score with its id. -/
abbrev Candidate := ScoreId × Score

/-- `replay_combination_scores` -/
def replayCombinationScores (apiMods : ApiMods) (scores : List Candidate) (target : Candidate) :
    List Candidate :=
  if replayRetentionEligible target.2 then
    scores.filter fun score =>
      replayRetentionEligible score.2 && decide (score.2.gamemode = target.2.gamemode) &&
        decide (replayModCombinationKey apiMods score.2.gamemode score.2.mods =
          replayModCombinationKey apiMods target.2.gamemode target.2.mods)
  else []

/-- Pairs in their lexicographic order, as `max` compares them. -/
def ReplayKey : Type := Lex (Int × Int)

instance : LinearOrder ReplayKey :=
  @Prod.Lex.instLinearOrder Int Int Int.instLinearOrder Int.instLinearOrder

/-- What `best_replay_score` maximises: the total, and of equal totals the first. -/
def replayOrder (score : Candidate) : ReplayKey :=
  toLex ((score.2.totalScore, -(score.1 : Int)) : Int × Int)

/-- `best_replay_score` -/
def bestReplayScore (apiMods : ApiMods) (scores : List Candidate) (target : Candidate) :
    Option Candidate :=
  (replayCombinationScores apiMods scores target).argmax replayOrder

end Soms.Replays
