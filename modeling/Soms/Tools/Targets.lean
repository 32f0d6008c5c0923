import Mathlib.Data.Finset.Basic
import Mathlib.Data.List.AList
import Mathlib.Data.List.Induction
import Soms.Scores.Data

/-!
# What the recalculation tool recalculates

`determine_targets` of `tools/server/recalculate.py`.  The filters of the command line name scores
or statistics; the answer has the users and modes to recalculate, each with the ids of the named
scores or, for all scores, with `None`.
-/

namespace Soms.Tools

open Scores (UserId BeatmapId SetId ScoreId GameMode UserMode)

/-- An entry of the JSON column `mods`. -/
inductive ModEntry where
  | dict (acronym : Option String)
  | other (text : String)
  deriving DecidableEq, Repr

/-- `acronym` -/
def ModEntry.acronym : ModEntry → Option String
  | dict acronym => acronym
  | other text => some text

structure ScoreRow where
  id : ScoreId
  userId : UserId
  gamemode : GameMode
  mods : Option (List ModEntry)
  beatmapId : BeatmapId
  passed : Bool
  deriving DecidableEq, Repr

def ScoreRow.key (row : ScoreRow) : UserMode := (row.userId, row.gamemode)

/-- The tables that the tool reads, and `str.upper`. -/
structure Database where
  scores : List ScoreRow
  /-- The sets of the beatmaps. -/
  beatmaps : BeatmapId → Option SetId
  statistics : List UserMode
  upper : String → String

/-- `PerformanceConfig` and `LeaderboardConfig`. -/
structure Config where
  userIds : Finset UserId
  modes : Finset GameMode
  mods : Finset String
  beatmapIds : Finset BeatmapId
  beatmapsetIds : Finset SetId
  deriving DecidableEq

/-- `dict[tuple[int, GameMode], set[int] | None]` -/
abbrev Targets := AList fun _ : UserMode => Option (Finset ScoreId)

def BANCHOBOT_ID : UserId := 2

/-- `config.mods or config.beatmap_ids or config.beatmapset_ids` -/
def Config.filtersScores (config : Config) : Bool :=
  config.mods ≠ ∅ || config.beatmapIds ≠ ∅ || config.beatmapsetIds ≠ ∅

/-- A condition that an empty set leaves out of a statement. -/
def allows {α : Type} [DecidableEq α] (filter : Finset α) (a : α) : Bool :=
  filter = ∅ || a ∈ filter

/-- `_score_has_required_mod` -/
def scoreHasRequiredMod (upper : String → String) (mods : Option (List ModEntry))
    (required : Finset String) : Bool :=
  if required = ∅ then true
  else (mods.getD []).any fun mod =>
    mod.acronym.any fun acronym => acronym ≠ "" && upper acronym ∈ required

/-- The conditions of the statement of `_populate_targets_from_scores`. -/
def selects (db : Database) (config : Config) (row : ScoreRow) : Bool :=
  row.passed && allows config.userIds row.userId && allows config.modes row.gamemode &&
  allows config.beatmapIds row.beatmapId &&
  (config.beatmapsetIds = ∅ ||
    (db.beatmaps row.beatmapId).any fun setId => setId ∈ config.beatmapsetIds)

/-- One pass of the loop over the stream. -/
def addScore (db : Database) (config : Config) (targets : Targets) (row : ScoreRow) : Targets :=
  if row.userId = BANCHOBOT_ID then targets
  else if !scoreHasRequiredMod db.upper row.mods config.mods then targets
  else
    match (targets.lookup row.key).join with
    | none => targets.insert row.key (some {row.id})
    | some bucket => targets.insert row.key (some (insert row.id bucket))

def populateTargetsFromScores (db : Database) (config : Config) (targets : Targets) : Targets :=
  (db.scores.filter (selects db config)).foldl (addScore db config) targets

def setdefault (targets : Targets) (key : UserMode) : Targets :=
  if targets.lookup key = none then targets.insert key none else targets

def populateTargetsFromStatistics (db : Database) (config : Config) (targets : Targets)
    (userFilter : Finset UserId) : Targets :=
  (db.statistics.filter fun row =>
    row.1 ≠ BANCHOBOT_ID && allows userFilter row.1 && allows config.modes row.2).foldl
      setdefault targets

/-- `{key: value for key, value in targets.items() if keep(key)}` -/
def keep (p : UserMode → Bool) (targets : Targets) : Targets :=
  ⟨targets.entries.filter fun entry => p entry.1,
    targets.nodupKeys.sublist List.filter_sublist⟩

/-- `determine_targets` up to the filters for users and modes. -/
def populateTargets (db : Database) (config : Config) : Targets :=
  let targets := if config.filtersScores then populateTargetsFromScores db config ∅ else ∅
  if config.userIds ≠ ∅ ∧ config.filtersScores = false then
    populateTargetsFromStatistics db config targets config.userIds
  else if targets.entries.isEmpty then populateTargetsFromStatistics db config targets ∅
  else targets

def determineTargets (db : Database) (config : Config) : Targets :=
  let targets := populateTargets db config
  let targets := if config.userIds ≠ ∅ then keep (·.1 ∈ config.userIds) targets else targets
  let targets := if config.modes ≠ ∅ then keep (·.2 ∈ config.modes) targets else targets
  keep (·.1 ≠ BANCHOBOT_ID) targets

/-! ### What the filters name -/

/-- The user and mode filters. -/
def Config.admits (config : Config) (key : UserMode) : Bool :=
  allows config.userIds key.1 && allows config.modes key.2

/-- A passed score that meets all score filters. -/
def ScoreRow.meets (db : Database) (config : Config) (row : ScoreRow) : Bool :=
  row.passed && allows config.beatmapIds row.beatmapId &&
    (config.beatmapsetIds = ∅ ||
      (db.beatmaps row.beatmapId).any fun setId => setId ∈ config.beatmapsetIds) &&
    scoreHasRequiredMod db.upper row.mods config.mods

/-- The ids of a user's scores in a mode that meet all score filters. -/
def named (db : Database) (config : Config) (key : UserMode) : Finset ScoreId :=
  ((db.scores.filter fun row => row.meets db config && row.key = key).map ScoreRow.id).toFinset

/-- The targets are those that the filters name. -/
structure OnlyNamed (db : Database) (config : Config) (targets : Targets) : Prop where
  admitted : ∀ key ∈ targets, config.admits key = true
  scored : config.filtersScores = true →
    ∀ key ∈ targets, ∃ row ∈ db.scores, row.meets db config = true ∧ row.key = key
  noBot : ∀ key ∈ targets, key.1 ≠ BANCHOBOT_ID
  allScored : config.filtersScores = true →
    ∀ row ∈ db.scores, row.meets db config = true → row.userId ≠ BANCHOBOT_ID →
      config.admits row.key = true → targets.lookup row.key = some (some (named db config row.key))
  allRanked : config.filtersScores = false →
    ∀ key ∈ db.statistics, key.1 ≠ BANCHOBOT_ID → config.admits key = true →
      targets.lookup key = some none

/-- The user and the mode of some score that the filters name, the bot's aside. -/
def SomeNamed (db : Database) (config : Config) : Prop :=
  ∃ row ∈ db.scores, row.meets db config = true ∧ row.userId ≠ BANCHOBOT_ID ∧
    config.admits row.key = true

variable {db : Database} {config : Config} {targets : Targets} {key : UserMode}
  {rows : List ScoreRow}

/-! ### The dictionary -/

theorem lookup_keep (p : UserMode → Bool) (targets : Targets) (key : UserMode) :
    (keep p targets).lookup key = if p key then targets.lookup key else none := by
  refine Option.ext fun value => ?_
  rw [← Option.mem_def, AList.mem_lookup_iff]
  show _ ∈ targets.entries.filter _ ↔ _
  rw [List.mem_filter]
  split
  · rename_i hp
    rw [← Option.mem_def, AList.mem_lookup_iff]
    exact and_iff_left hp
  · rename_i hp
    exact iff_of_false (fun h => hp h.2) (by simp)

theorem isEmpty_iff (targets : Targets) :
    targets.entries.isEmpty = true ↔ ∀ key, targets.lookup key = none := by
  rw [List.isEmpty_iff, List.eq_nil_iff_forall_not_mem]
  constructor
  · intro h key
    cases hlookup : targets.lookup key with
    | none => rfl
    | some value => exact absurd (AList.mem_lookup_iff.mp hlookup) (h _)
  · intro h entry hentry
    have hlookup := AList.mem_lookup_iff.mpr hentry
    rw [h] at hlookup
    cases hlookup

theorem lookup_setdefault (targets : Targets) (k key : UserMode) :
    (setdefault targets k).lookup key =
      if k = key ∧ targets.lookup key = none then some none else targets.lookup key := by
  unfold setdefault
  by_cases hnone : targets.lookup k = none
  · rw [if_pos hnone]
    by_cases hk : k = key
    · subst hk
      rw [AList.lookup_insert, if_pos ⟨rfl, hnone⟩]
    · rw [if_neg fun h => hk h.1]
      exact AList.lookup_insert_ne (Ne.symm hk)
  · have hsome : ¬ (k = key ∧ targets.lookup key = none) := fun h => hnone (h.1 ▸ h.2)
    rw [if_neg hnone, if_neg hsome]

theorem lookup_foldl_setdefault (keys : List UserMode) (key : UserMode) :
    (keys.foldl setdefault ∅ : Targets).lookup key = if key ∈ keys then some none else none := by
  induction keys using List.reverseRecOn with
  | nil => simp
  | append_singleton keys k ih =>
    rw [List.foldl_concat, lookup_setdefault, ih]
    by_cases hmem : key ∈ keys
    · simp [hmem]
    · by_cases hk : key = k
      · simp [hk]
      · simp [hmem, hk, Ne.symm hk]

/-! ### The scores -/

/-- A score of the stream that the loop counts for a user and a mode. -/
def counts (db : Database) (config : Config) (key : UserMode) (row : ScoreRow) : Bool :=
  row.userId ≠ BANCHOBOT_ID && scoreHasRequiredMod db.upper row.mods config.mods && row.key = key

theorem lookup_addScore (db : Database) (config : Config) (targets : Targets) (row : ScoreRow)
    (key : UserMode) :
    (addScore db config targets row).lookup key =
      if counts db config key row then
        some (some (insert row.id ((targets.lookup key).join.getD ∅)))
      else targets.lookup key := by
  unfold addScore counts
  by_cases hbot : row.userId = BANCHOBOT_ID
  · simp [hbot]
  · cases hmod : scoreHasRequiredMod db.upper row.mods config.mods with
    | false => simp [hbot]
    | true =>
      by_cases hkey : row.key = key
      · subst hkey
        cases (targets.lookup row.key).join <;> simp [hbot, AList.lookup_insert]
      · cases (targets.lookup row.key).join <;>
          simp [hbot, hkey, AList.lookup_insert_ne (Ne.symm hkey)]

theorem lookup_foldl_addScore (rows : List ScoreRow) (key : UserMode) :
    (rows.foldl (addScore db config) ∅ : Targets).lookup key =
      if ∃ row ∈ rows, counts db config key row = true then
        some (some ((rows.filter (counts db config key)).map ScoreRow.id).toFinset)
      else none := by
  induction rows using List.reverseRecOn with
  | nil => simp
  | append_singleton rows row ih =>
    rw [List.foldl_concat, lookup_addScore, ih]
    cases hrow : counts db config key row with
    | false => simp [hrow]
    | true =>
      have hnew : ∃ row' ∈ rows ++ [row], counts db config key row' = true :=
        ⟨row, by simp, hrow⟩
      rw [if_pos rfl, if_pos hnew]
      by_cases hold : ∃ row ∈ rows, counts db config key row = true
      · rw [if_pos hold]
        simp only [Option.join_some, Option.getD_some, List.filter_append, List.map_append,
          List.toFinset_append, List.filter_cons_of_pos hrow, List.filter_nil, List.map_cons,
          List.map_nil, List.toFinset_cons, List.toFinset_nil, Finset.insert_eq, Finset.empty_union,
          Finset.union_comm]
      · have hnone : rows.filter (counts db config key) = [] :=
          List.filter_eq_nil_iff.mpr fun row' hmem hcounts => hold ⟨row', hmem, hcounts⟩
        rw [if_neg hold]
        simp [hrow, hnone]

/-! ### The answer -/

/-- What the loop counts for a user and a mode is what the filters name. -/
theorem selects_counts (row : ScoreRow) :
    (selects db config row && counts db config key row) =
      ((key.1 ≠ BANCHOBOT_ID && config.admits key) && (row.meets db config && row.key = key)) := by
  by_cases hkey : row.key = key
  · subst hkey
    simp only [counts, selects, ScoreRow.meets, Config.admits, ScoreRow.key, decide_true,
      Bool.and_true]
    ac_rfl
  · simp [counts, hkey]

theorem counted_iff :
    (∃ row ∈ db.scores.filter (selects db config), counts db config key row = true) ↔
      (key.1 ≠ BANCHOBOT_ID ∧ config.admits key = true) ∧
        ∃ row ∈ db.scores, row.meets db config = true ∧ row.key = key := by
  have hrow : ∀ row, selects db config row = true ∧ counts db config key row = true ↔
      (key.1 ≠ BANCHOBOT_ID ∧ config.admits key = true) ∧
        row.meets db config = true ∧ row.key = key := by
    intro row
    have h := Bool.eq_iff_iff.mp (@selects_counts db config key row)
    simpa only [Bool.and_eq_true, decide_eq_true_eq] using h
  constructor
  · intro ⟨row, hmem, hcounts⟩
    obtain ⟨hmem, hselects⟩ := List.mem_filter.mp hmem
    obtain ⟨hkey, hmeets⟩ := (hrow row).mp ⟨hselects, hcounts⟩
    exact ⟨hkey, row, hmem, hmeets⟩
  · intro ⟨hkey, row, hmem, hmeets⟩
    obtain ⟨hselects, hcounts⟩ := (hrow row).mpr ⟨hkey, hmeets⟩
    exact ⟨row, List.mem_filter.mpr ⟨hmem, hselects⟩, hcounts⟩

theorem lookup_populateTargetsFromScores :
    (populateTargetsFromScores db config ∅).lookup key =
      if (key.1 ≠ BANCHOBOT_ID ∧ config.admits key = true) ∧
          ∃ row ∈ db.scores, row.meets db config = true ∧ row.key = key then
        some (some (named db config key))
      else none := by
  rw [populateTargetsFromScores, lookup_foldl_addScore, if_congr counted_iff rfl rfl]
  split
  · rename_i h
    rw [List.filter_filter, named]
    congr 5
    funext row
    rw [Bool.and_comm, selects_counts, h.1.2, decide_eq_true h.1.1]
    rfl
  · rfl

theorem lookup_populateTargetsFromStatistics (userFilter : Finset UserId) :
    (populateTargetsFromStatistics db config ∅ userFilter).lookup key =
      if key ∈ db.statistics ∧ key.1 ≠ BANCHOBOT_ID ∧ allows userFilter key.1 = true ∧
          allows config.modes key.2 = true then some none
      else none := by
  rw [populateTargetsFromStatistics, lookup_foldl_setdefault]
  simp [List.mem_filter, and_assoc]

/-- Some target has scores exactly if the filters name some. -/
theorem scores_isEmpty_iff :
    (populateTargetsFromScores db config ∅).entries.isEmpty = true ↔ ¬ SomeNamed db config := by
  rw [isEmpty_iff]
  constructor
  · intro hnone ⟨row, hmem, hmeets, hbot, hadmits⟩
    have hlookup := hnone row.key
    rw [lookup_populateTargetsFromScores, if_pos ⟨⟨hbot, hadmits⟩, row, hmem, hmeets, rfl⟩]
      at hlookup
    cases hlookup
  · intro hnone key
    rw [lookup_populateTargetsFromScores, if_neg]
    rintro ⟨⟨hbot, hadmits⟩, row, hmem, hmeets, rfl⟩
    exact hnone ⟨row, hmem, hmeets, hbot, hadmits⟩

theorem populateTargets_scores (hfilters : config.filtersScores = true)
    (hnamed : SomeNamed db config) :
    populateTargets db config = populateTargetsFromScores db config ∅ := by
  have hsome : ¬ (populateTargetsFromScores db config ∅).entries.isEmpty = true :=
    fun h => scores_isEmpty_iff.mp h hnamed
  unfold populateTargets
  simp only [hfilters, if_true, Bool.true_eq_false, and_false, if_false]
  exact if_neg hsome

/-- Otherwise the statistics are, whatever the score filters are. -/
theorem populateTargets_statistics (h : ¬ (config.filtersScores = true ∧ SomeNamed db config)) :
    ∃ userFilter, populateTargets db config =
        populateTargetsFromStatistics db config ∅ userFilter ∧
      ∀ userId, allows config.userIds userId = true → allows userFilter userId = true := by
  unfold populateTargets
  cases hfilters : config.filtersScores with
  | true =>
    have hempty := scores_isEmpty_iff.mpr fun hnamed => h ⟨hfilters, hnamed⟩
    have hscores : populateTargetsFromScores db config ∅ = ∅ :=
      AList.ext (List.isEmpty_iff.mp hempty)
    refine ⟨∅, ?_, fun _ _ => rfl⟩
    simp [hscores]
  | false =>
    by_cases husers : config.userIds = ∅
    · refine ⟨∅, ?_, fun _ _ => rfl⟩
      simp [husers]
    · refine ⟨config.userIds, ?_, fun _ h => h⟩
      simp [husers]

theorem lookup_populateTargets (h : ¬ (config.filtersScores = true ∧ SomeNamed db config))
    (hbot : key.1 ≠ BANCHOBOT_ID) (hadmits : config.admits key = true) :
    (populateTargets db config).lookup key = if key ∈ db.statistics then some none else none := by
  obtain ⟨userFilter, htargets, hallows⟩ := populateTargets_statistics h
  rw [Config.admits, Bool.and_eq_true] at hadmits
  rw [htargets, lookup_populateTargetsFromStatistics]
  simp [hbot, hallows key.1 hadmits.1, hadmits.2]

theorem lookup_keepIf {α : Type} [DecidableEq α] (filter : Finset α) (part : UserMode → α)
    (targets : Targets) (key : UserMode) :
    (if filter ≠ ∅ then keep (part · ∈ filter) targets else targets).lookup key =
      if allows filter (part key) then targets.lookup key else none := by
  by_cases hfilter : filter = ∅
  · simp [hfilter, allows]
  · rw [if_pos hfilter, lookup_keep]
    simp [hfilter, allows]

theorem lookup_determineTargets (db : Database) (config : Config) (key : UserMode) :
    (determineTargets db config).lookup key =
      if key.1 ≠ BANCHOBOT_ID ∧ config.admits key = true then
        (populateTargets db config).lookup key
      else none := by
  rw [determineTargets, lookup_keep, lookup_keepIf config.modes Prod.snd,
    lookup_keepIf config.userIds Prod.fst, Config.admits]
  by_cases hbot : key.1 = BANCHOBOT_ID
  · simp [hbot]
  · cases allows config.userIds key.1 <;> cases allows config.modes key.2 <;> simp [hbot]

/-- A target is admitted and not the bot's. -/
theorem determineTargets_mem (h : key ∈ determineTargets db config) :
    (key.1 ≠ BANCHOBOT_ID ∧ config.admits key = true) ∧ key ∈ populateTargets db config := by
  rw [← AList.lookup_isSome, lookup_determineTargets] at h
  split at h
  · rename_i hkey
    exact ⟨hkey, AList.lookup_isSome.mp h⟩
  · cases h

/-- If some score is named, each target has one. -/
theorem scored_of_named (hfilters : config.filtersScores = true) (hnamed : SomeNamed db config)
    (h : key ∈ populateTargets db config) :
    ∃ row ∈ db.scores, row.meets db config = true ∧ row.key = key := by
  rw [populateTargets_scores hfilters hnamed, ← AList.lookup_isSome,
    lookup_populateTargetsFromScores] at h
  split at h
  · rename_i hkey
    exact hkey.2
  · cases h

/-- Only what the filters name is recalculated if and only if no score filter is given, some score
is named, or no statistics would stand in for the scores. -/
theorem onlyNamed_iff (db : Database) (config : Config) :
    OnlyNamed db config (determineTargets db config) ↔
      config.filtersScores = false ∨ SomeNamed db config ∨
        ∀ key ∈ db.statistics, key.1 ≠ BANCHOBOT_ID → config.admits key = false := by
  constructor
  · intro h
    by_contra hnot
    simp only [not_or, Bool.not_eq_false, not_forall] at hnot
    obtain ⟨hfilters, hnone, key, hmem, hbot, hadmits⟩ := hnot
    have hlookup : (determineTargets db config).lookup key = some none := by
      rw [lookup_determineTargets, if_pos ⟨hbot, hadmits⟩,
        lookup_populateTargets (fun h => hnone h.2) hbot hadmits, if_pos hmem]
    have htarget : key ∈ determineTargets db config := by
      rw [← AList.lookup_isSome, hlookup]
      rfl
    obtain ⟨row, hrow, hmeets, rfl⟩ := h.scored hfilters key htarget
    exact hnone ⟨row, hrow, hmeets, hbot, hadmits⟩
  · intro h
    refine
      { admitted := fun key hkey => (determineTargets_mem hkey).1.2
        noBot := fun key hkey => (determineTargets_mem hkey).1.1
        scored := fun hfilters key hkey => ?_
        allScored := fun hfilters row hrow hmeets hbot hadmits => ?_
        allRanked := fun hfilters key hkey hbot hadmits => ?_ }
    · obtain ⟨⟨hbot, hadmits⟩, hmem⟩ := determineTargets_mem hkey
      by_cases hnamed : SomeNamed db config
      · exact scored_of_named hfilters hnamed hmem
      · have hstatistics := (h.resolve_left (by simp [hfilters])).resolve_left hnamed
        rw [← AList.lookup_isSome,
          lookup_populateTargets (fun h => hnamed h.2) hbot hadmits] at hmem
        split at hmem
        · rename_i hrow
          rw [hstatistics key hrow hbot] at hadmits
          cases hadmits
        · cases hmem
    · have hnamed : SomeNamed db config := ⟨row, hrow, hmeets, hbot, hadmits⟩
      rw [lookup_determineTargets, if_pos ⟨hbot, hadmits⟩, populateTargets_scores hfilters hnamed,
        lookup_populateTargetsFromScores, if_pos ⟨⟨hbot, hadmits⟩, row, hrow, hmeets, rfl⟩]
    · have hnot : ¬ (config.filtersScores = true ∧ SomeNamed db config) := by simp [hfilters]
      rw [lookup_determineTargets, if_pos ⟨hbot, hadmits⟩, lookup_populateTargets hnot hbot hadmits,
        if_pos hkey]

/-- A player without a score in double time. -/
def noDoubleTime : Database where
  scores := [⟨1, 7, .osu, some [.dict (some "HD")], 3, true⟩]
  beatmaps := fun _ => some 1
  statistics := [(7, .osu)]
  upper := id

/-- `--mod DT` -/
def doubleTime : Config := ⟨∅, ∅, {"DT"}, ∅, ∅⟩

theorem not_onlyNamed_doubleTime :
    ¬ OnlyNamed noDoubleTime doubleTime (determineTargets noDoubleTime doubleTime) := by
  intro h
  have htarget : ((7, .osu) : UserMode) ∈ determineTargets noDoubleTime doubleTime := by decide
  obtain ⟨row, hrow, hmeets, -⟩ := h.scored (by decide) _ htarget
  rw [List.mem_singleton.mp hrow] at hmeets
  exact absurd hmeets (by decide)

end Soms.Tools
