import Mathlib.Data.List.MinMax
import Mathlib.Data.Prod.Lex
import Mathlib.Data.String.Basic
import Soms.Library.FirstBest
import Soms.Scores.Granted
import Soms.Scores.PpBest

/-!
# PP of Difficulty Adjust

`difficulty_adjust_pp_service.py`: the PP of plays with Difficulty Adjust is taken away, and the
bests of the users, maps and modes that have such a play are rebuilt from the other plays.
-/

namespace Soms.Scores

/-- `GameMode.value` -/
def GameMode.value : GameMode → String
  | .osu => "osu"
  | .taiko => "taiko"
  | .fruits => "fruits"
  | .mania => "mania"
  | .osurx => "osurx"
  | .osuap => "osuap"
  | .taikorx => "taikorx"
  | .fruitsrx => "fruitsrx"
  | .sentakki => "Sentakki"
  | .tau => "tau"
  | .rush => "rush"
  | .hishigata => "hishigata"
  | .soyokaze => "soyokaze"

namespace PpTables

variable {srv : Server}

/-! ## The first of the best -/

/-- The table holds the first of the best of the processed scores of every key. -/
def HoldsFirst (processed : List BestScore) (t : PpTables) : Prop :=
  ∀ k, rowsOf k t.bestScores = ((rowsOf k processed).argmax (·.pp)).toList

theorem HoldsFirst.process {processed : List BestScore} {t : PpTables} (hkeyed : t.Keyed)
    (h : HoldsFirst processed t) (call : ScoreId × Option ℚ) :
    HoldsFirst (processed ++ (t.awarded srv call).toList) (t.process srv call) := by
  intro k
  rw [(process_cases srv t call).2]
  cases hnew : t.awarded srv call with
  | none => simpa using h k
  | some new =>
    show rowsOf k (updatePpBest new t.bestScores) =
      ((rowsOf k (processed ++ [new])).argmax _).toList
    rw [rowsOf_append, rowsOf_single]
    by_cases hk : new.key = k
    · subst hk
      rw [rowsOf_updatePpBest new (h new.key), if_pos rfl, List.argmax_concat]
      cases (rowsOf new.key processed).argmax (·.pp) with
      | none => rfl
      | some best =>
        by_cases hpp : best.pp < new.pp
        · simp [hpp]
        · simp [hpp]
    · rw [rowsOf_updatePpBest_of_ne hk hkeyed.key_eq, if_neg hk, List.append_nil]
      exact h k

theorem HoldsFirst.processAll {processed : List BestScore} {t : PpTables} (hkeyed : t.Keyed)
    (h : HoldsFirst processed t) (calls : List (ScoreId × Option ℚ)) :
    HoldsFirst (processed ++ awards srv calls t) (processAll srv calls t) := by
  induction calls generalizing processed t with
  | nil => simpa [awards, PpTables.processAll] using h
  | cons call calls ih =>
    have hrest := ih (hkeyed.process srv call) (h.process hkeyed call)
    rwa [List.append_assoc] at hrest

/-- A call leaves the other scores alone. -/
theorem row_process (t : PpTables) (call : ScoreId × Option ℚ) {sid : ScoreId}
    (h : sid ≠ call.1) : (t.process srv call).scores.row sid = t.scores.row sid := by
  unfold process processScorePp
  cases t.scores.row call.1 with
  | none => rfl
  | some sc =>
    cases hcan : canGetPp srv sc with
    | false =>
      show ((if canGetPp srv sc = false then _ else _ : Option PpTables).getD t).scores.row sid = _
      rw [if_pos hcan]
      exact if_neg h
    | true =>
      show ((if canGetPp srv sc = false then _ else _ : Option PpTables).getD t).scores.row sid = _
      rw [if_neg (by simp [hcan])]
      cases awardedRow call.2 call.1 sc with
      | none => rfl
      | some new => exact if_neg h

/-- Calls for different scores do not see each other. -/
theorem awards_eq {calls : List (ScoreId × Option ℚ)} (hcalls : (calls.map Prod.fst).Nodup)
    (t : PpTables) : awards srv calls t = calls.filterMap (t.awarded srv) := by
  induction calls generalizing t with
  | nil => rfl
  | cons call calls ih =>
    obtain ⟨hcall, hrest⟩ := List.nodup_cons.mp hcalls
    have hsame : calls.filterMap ((t.process srv call).awarded srv) =
        calls.filterMap (t.awarded srv) := by
      refine List.filterMap_congr fun other hother => ?_
      have hne : other.1 ≠ call.1 := fun heq => hcall (heq ▸ List.mem_map_of_mem hother)
      rw [awarded, awarded, row_process t call hne]
    rw [awards, ih hrest, hsame, List.filterMap_cons]
    cases t.awarded srv call <;> rfl

/-- From an empty table, calls for different scores leave the first of the best of each key. -/
theorem rowsOf_processAll {calls : List (ScoreId × Option ℚ)} (hcalls : (calls.map Prod.fst).Nodup)
    (scores : Table Score) (k : MapKey) :
    rowsOf k (processAll srv calls ⟨scores, []⟩).bestScores =
      ((rowsOf k (calls.filterMap (PpTables.awarded srv ⟨scores, []⟩))).argmax (·.pp)).toList := by
  have hkeyed : PpTables.Keyed ⟨scores, []⟩ := fun row hrow => absurd hrow List.not_mem_nil
  have hempty : HoldsFirst [] ⟨scores, []⟩ := fun k => rfl
  have hfirst : HoldsFirst ([] ++ awards srv calls ⟨scores, []⟩)
      (processAll srv calls ⟨scores, []⟩) := hempty.processAll hkeyed calls
  rw [List.nil_append, awards_eq hcalls] at hfirst
  exact hfirst k

end PpTables

namespace DifficultyAdjust

/-- The tables that the repair reads and writes. -/
structure Tables extends PpTables where
  stats : UserMode → Option UserStatistics
  /-- The beatmaps and the tables of their policies. -/
  policies : State

structure ChangedScore where
  id : ScoreId
  previousPp : ℚ

structure ChangedProfile where
  userId : UserId
  mode : GameMode
  previousPp : ℚ
  pp : ℚ

structure Report where
  scores : List ChangedScore
  profiles : List ChangedProfile

/-- `func.json_contains(Score.mods, '{"acronym":"DA"}')` -/
def containsDa (mods : List APIMod) : Bool := mods.any fun mod => mod.acronym == "DA"

section Rules

variable (upper : String → String) (srv : Server)

/-- `has_difficulty_adjust` -/
def hasDifficultyAdjust (mods : List APIMod) : Bool :=
  mods.any fun mod => upper mod.acronym == "DA"

/-- `replacement_is_eligible` -/
def replacementIsEligible (sc : Score) (mapPpEnabled : Bool) (checksum : Checksum) : Bool :=
  sc.processed && sc.passed && sc.ranked && mapPpEnabled && sc.mapMd5 == checksum &&
    decide (0 < sc.pp) && !hasDifficultyAdjust upper sc.mods &&
    srv.modsCanGetPp sc.mode.toInt sc.mods

end Rules

namespace Tables

/-! ## The rows with Difficulty Adjust -/

/-- `da_rows` -/
def daRows (t : Tables) : List (ScoreId × Score) :=
  t.scores.toList.filter fun x => containsDa x.2.mods

/-- `map_ids` -/
def mapIds (t : Tables) : List BeatmapId := t.daRows.map (·.2.beatmapId)

def userIds (t : Tables) : List UserId := t.daRows.map (·.2.userId)

/-- `user_modes` -/
def userModes (t : Tables) : List UserMode :=
  (t.daRows.map (·.2.key.userMode)).dedup.mergeSort fun a b =>
    decide (toLex (a.1, toLex (a.2.toInt, a.2.value)) ≤ toLex (b.1, toLex (b.2.toInt, b.2.value)))

/-- `keys`, in the order in which they are rebuilt. -/
def keys (t : Tables) : List MapKey :=
  (t.daRows.map (·.2.key)).dedup.mergeSort fun a b =>
    decide (toLex (a.userId, toLex (a.mode.value, a.beatmapId)) ≤
      toLex (b.userId, toLex (b.mode.value, b.beatmapId)))

/-- The condition of the statement that reads the scores: the users crossed with the maps. -/
def selects (t : Tables) (sc : Score) : Bool :=
  decide (sc.beatmapId ∈ t.mapIds) && decide (sc.userId ∈ t.userIds)

section Repair

variable (upper : String → String) (srv : Server) (negativeMaps : BeatmapId → Bool)

/-- The score without its PP, if it was selected and has Difficulty Adjust. -/
def stripped (t : Tables) (sc : Score) : Score :=
  if t.selects sc && hasDifficultyAdjust upper sc.mods then { sc with pp := 0 } else sc

/-- `scores`, after the PP was taken away. -/
def selected (t : Tables) : List (ScoreId × Score) :=
  (t.scores.map (t.stripped upper)).toList.filter fun x => t.selects x.2

/-- The map has a policy, under which and for whose checksum the score is eligible. -/
def accepts (t : Tables) (sc : Score) : Bool :=
  (t.policies.beatmaps.row sc.beatmapId).any fun bm =>
    replacementIsEligible upper srv sc
      (srv.grants (t.policies.effectivePolicy sc.beatmapId bm) .pp) bm.checksum

/-- One turn of the loop over the scores. -/
def consider (t : Tables) (replacements : MapKey → Option (ScoreId × Score))
    (x : ScoreId × Score) : MapKey → Option (ScoreId × Score) :=
  if !decide (x.2.key ∈ t.keys) || !t.accepts upper srv x.2 then replacements
  else
    match replacements x.2.key with
    | none => Function.update replacements x.2.key (some x)
    | some previous =>
      if previous.2.pp < x.2.pp then Function.update replacements x.2.key (some x)
      else replacements

def replacements (t : Tables) : MapKey → Option (ScoreId × Score) :=
  (t.selected upper).foldl (t.consider upper srv) fun _ => none

/-- The row that a replacement gets. -/
def bestOf (x : ScoreId × Score) : BestScore := BestScore.ofScore x.1 x.2 x.2.pp

/-- The loop over the keys: the rows of the key are deleted, and the replacement is added. -/
def rebuild (replacements : MapKey → Option (ScoreId × Score)) (keys : List MapKey)
    (rows : List BestScore) : List BestScore :=
  keys.foldl (fun rows k =>
    rows.filter (fun row => decide (row.key ≠ k)) ++ ((replacements k).map bestOf).toList) rows

/-- The statistics with the totals of the rows. -/
def recalculated (rows : List BestScore) (um : UserMode) (st : UserStatistics) : UserStatistics :=
  { st with
    pp := (calculateUserPp negativeMaps rows um).1
    hitAccuracy := (calculateUserPp negativeMaps rows um).2 }

def report (t : Tables) (rows : List BestScore) : Report where
  scores := (t.scores.toList.filter fun x =>
    t.selects x.2 && hasDifficultyAdjust upper x.2.mods).map fun x => ⟨x.1, x.2.pp⟩
  profiles := t.userModes.filterMap fun um => (t.stats um).map fun st =>
    ⟨um.1, um.2, st.pp, (calculateUserPp negativeMaps rows um).1⟩

/-- `retire_difficulty_adjust_pp` -/
def retire (t : Tables) : Tables × Report :=
  if t.daRows.isEmpty then (t, ⟨[], []⟩)
  else
    let rows := rebuild (t.replacements upper srv) t.keys t.bestScores
    ({ t with
        scores := t.scores.map (t.stripped upper)
        bestScores := rows
        stats := fun um =>
          if um ∈ t.userModes then (t.stats um).map (recalculated negativeMaps rows um)
          else t.stats um },
      t.report upper negativeMaps rows)

end Repair

/-! ## What the statements select -/

theorem mem_daRows {t : Tables} {x : ScoreId × Score} :
    x ∈ t.daRows ↔ t.scores.row x.1 = some x.2 ∧ containsDa x.2.mods = true := by
  rw [daRows, List.mem_filter]
  exact and_congr_left fun _ => Table.mem_toList

theorem nodup_keys (t : Tables) : t.keys.Nodup :=
  (List.mergeSort_perm _ _).nodup_iff.mpr (List.nodup_dedup _)

theorem mem_keys {t : Tables} {k : MapKey} :
    k ∈ t.keys ↔ ∃ sid sc, t.scores.row sid = some sc ∧ sc.key = k ∧ containsDa sc.mods = true := by
  rw [keys, (List.mergeSort_perm _ _).mem_iff, List.mem_dedup, List.mem_map]
  constructor
  · rintro ⟨x, hx, hk⟩
    obtain ⟨hrow, hda⟩ := mem_daRows.mp hx
    exact ⟨x.1, x.2, hrow, hk, hda⟩
  · rintro ⟨sid, sc, hrow, hk, hda⟩
    exact ⟨(sid, sc), mem_daRows.mpr ⟨hrow, hda⟩, hk⟩

theorem mem_userModes {t : Tables} {um : UserMode} :
    um ∈ t.userModes ↔ ∃ k ∈ t.keys, k.userMode = um := by
  rw [userModes, (List.mergeSort_perm _ _).mem_iff, List.mem_dedup, List.mem_map]
  constructor
  · rintro ⟨x, hx, hum⟩
    obtain ⟨hrow, hda⟩ := mem_daRows.mp hx
    exact ⟨x.2.key, mem_keys.mpr ⟨x.1, x.2, hrow, rfl, hda⟩, hum⟩
  · rintro ⟨k, hk, hum⟩
    obtain ⟨sid, sc, hrow, rfl, hda⟩ := mem_keys.mp hk
    exact ⟨(sid, sc), mem_daRows.mpr ⟨hrow, hda⟩, hum⟩

/-- The scores of a key with Difficulty Adjust are selected. -/
theorem selects_of_mem_keys {t : Tables} {sc : Score} (h : sc.key ∈ t.keys) :
    t.selects sc = true := by
  obtain ⟨sid, da, hrow, hkey, hda⟩ := mem_keys.mp h
  have hmem : (sid, da) ∈ t.daRows := mem_daRows.mpr ⟨hrow, hda⟩
  have hmap : sc.beatmapId ∈ t.mapIds :=
    List.mem_map.mpr ⟨_, hmem, congrArg MapKey.beatmapId hkey⟩
  have huser : sc.userId ∈ t.userIds := List.mem_map.mpr ⟨_, hmem, congrArg MapKey.userId hkey⟩
  simp [selects, hmap, huser]

variable (upper : String → String) (srv : Server)

@[simp] theorem key_stripped (t : Tables) (sc : Score) : (t.stripped upper sc).key = sc.key := by
  unfold stripped
  split <;> rfl

@[simp] theorem mods_stripped (t : Tables) (sc : Score) : (t.stripped upper sc).mods = sc.mods := by
  unfold stripped
  split <;> rfl

@[simp] theorem selects_stripped (t : Tables) (u : Tables) (sc : Score) :
    t.selects (u.stripped upper sc) = t.selects sc := by
  unfold stripped
  split <;> rfl

theorem stripped_of_not {t : Tables} {sc : Score} (h : hasDifficultyAdjust upper sc.mods = false) :
    t.stripped upper sc = sc := by
  simp [stripped, h]

/-- A score that is accepted has no Difficulty Adjust. -/
theorem not_da_of_accepts {t : Tables} {sc : Score} (h : t.accepts upper srv sc = true) :
    hasDifficultyAdjust upper sc.mods = false := by
  obtain ⟨bm, -, helig⟩ := (Option.any_eq_true _ _).mp h
  simp only [replacementIsEligible, Bool.and_eq_true, Bool.not_eq_true'] at helig
  exact helig.1.2

/-! ## The replacement of a key -/

/-- The scores of the key that are accepted, in the order of their ids. -/
def candidates (t : Tables) (k : MapKey) : List (ScoreId × Score) :=
  t.scores.toList.filter fun x => decide (x.2.key = k) && t.accepts upper srv x.2

theorem mem_candidates {t : Tables} {k : MapKey} {x : ScoreId × Score} :
    x ∈ t.candidates upper srv k ↔
      t.scores.row x.1 = some x.2 ∧ x.2.key = k ∧ t.accepts upper srv x.2 = true := by
  rw [candidates, List.mem_filter, Bool.and_eq_true, decide_eq_true_eq]
  exact and_congr_left fun _ => Table.mem_toList

/-- A score that is accepted replaces the one of its key if it has more PP. -/
theorem consider_apply (t : Tables) (st : MapKey → Option (ScoreId × Score)) (x : ScoreId × Score)
    {k : MapKey} (hk : k ∈ t.keys) :
    t.consider upper srv st x k =
      if decide (x.2.key = k) && t.accepts upper srv x.2 then
        (st k).elim (some x) fun previous =>
          if previous.2.pp < x.2.pp then some x else some previous
      else st k := by
  unfold consider
  by_cases hkey : x.2.key = k
  · subst hkey
    cases haccepts : t.accepts upper srv x.2 with
    | false => simp
    | true =>
      rw [if_neg (by simp [hk]), if_pos (by simp)]
      cases hst : st x.2.key with
      | none => exact Function.update_self _ _ _
      | some previous =>
        show (if previous.2.pp < x.2.pp then _ else st) x.2.key = if _ then _ else _
        split
        · exact Function.update_self _ _ _
        · exact hst
  · rw [if_neg (show ¬(decide (x.2.key = k) && t.accepts upper srv x.2) = true by simp [hkey])]
    split
    · rfl
    · cases hst : st x.2.key with
      | none => exact Function.update_of_ne (Ne.symm hkey) _ _
      | some previous =>
        show (if previous.2.pp < x.2.pp then _ else st) k = st k
        split
        · exact Function.update_of_ne (Ne.symm hkey) _ _
        · rfl

/-- The loop keeps the first of the best of each key. -/
theorem foldl_consider (t : Tables) (l : List (ScoreId × Score)) {k : MapKey} (hk : k ∈ t.keys) :
    l.foldl (t.consider upper srv) (fun _ => none) k =
      (l.filter fun x => decide (x.2.key = k) && t.accepts upper srv x.2).argmax (·.2.pp) := by
  induction l using List.reverseRecOn with
  | nil => rfl
  | append_singleton l x ih =>
    rw [List.foldl_append, List.foldl_cons, List.foldl_nil, List.filter_append,
      consider_apply upper srv t _ x hk, ih]
    cases hpass : decide (x.2.key = k) && t.accepts upper srv x.2 with
    | false => simp [hpass]
    | true =>
      have hsingle :
          ([x].filter fun x => decide (x.2.key = k) && t.accepts upper srv x.2) = [x] := by
        simp only [List.filter_cons, hpass, if_true, List.filter_nil]
      rw [hsingle, List.argmax_concat, if_pos rfl]
      cases (l.filter fun x => decide (x.2.key = k) && t.accepts upper srv x.2).argmax (·.2.pp) <;>
        rfl

/-- What is selected of a key and accepted is what was accepted before. -/
theorem filter_selected (t : Tables) {k : MapKey} (hk : k ∈ t.keys) :
    ((t.selected upper).filter fun x => decide (x.2.key = k) && t.accepts upper srv x.2) =
      t.candidates upper srv k := by
  rw [selected, List.filter_filter, Table.toList_map, List.filter_map, candidates]
  have hsame : ∀ x : ScoreId × Score,
      (((fun x : ScoreId × Score => (decide (x.2.key = k) && t.accepts upper srv x.2) &&
          t.selects x.2) ∘ fun x => (x.1, t.stripped upper x.2)) x) =
        (decide (x.2.key = k) && t.accepts upper srv x.2) := by
    intro x
    by_cases hkey : x.2.key = k
    · have hselects : t.selects x.2 = true := selects_of_mem_keys (hkey ▸ hk)
      cases hda : hasDifficultyAdjust upper x.2.mods with
      | false => simp [stripped_of_not upper hda, hselects]
      | true =>
        have hno : ∀ sc : Score, sc.mods = x.2.mods → t.accepts upper srv sc = false := by
          intro sc hmods
          by_contra haccepts
          have hnot := not_da_of_accepts upper srv (Bool.not_eq_false _ ▸ haccepts)
          rw [hmods, hda] at hnot
          cases hnot
        simp [hno _ (mods_stripped upper t x.2), hno _ rfl]
    · simp [hkey]
  rw [List.filter_congr fun x _ => hsame x]
  refine (List.map_congr_left fun x hx => ?_).trans (List.map_id _)
  have haccepts := (Bool.and_eq_true_iff.mp (List.mem_filter.mp hx).2).2
  rw [stripped_of_not upper (not_da_of_accepts upper srv haccepts)]
  rfl

/-- **The replacement of a key** is the first of its best candidates. -/
theorem replacements_eq (t : Tables) {k : MapKey} (hk : k ∈ t.keys) :
    t.replacements upper srv k = (t.candidates upper srv k).argmax (·.2.pp) := by
  rw [replacements, foldl_consider upper srv t _ hk, filter_selected upper srv t hk]

/-! ## The rows of the keys -/

section Rebuild

variable {new : MapKey → Option (ScoreId × Score)} {keys : List MapKey}

theorem rebuild_eq (hnew : ∀ k ∈ keys, ∀ x, new k = some x → x.2.key = k) (hkeys : keys.Nodup)
    (rows : List BestScore) :
    rebuild new keys rows = rows.filter (fun row => decide (row.key ∉ keys)) ++
      keys.flatMap fun k => ((new k).map bestOf).toList := by
  induction keys generalizing rows with
  | nil => simp [rebuild]
  | cons k keys ih =>
    obtain ⟨hk, hrest⟩ := List.nodup_cons.mp hkeys
    have hown : (((new k).map bestOf).toList.filter fun row => decide (row.key ∉ keys)) =
        ((new k).map bestOf).toList := by
      refine List.filter_eq_self.mpr fun row hrow => ?_
      obtain ⟨x, hx, rfl⟩ := Option.map_eq_some_iff.mp (Option.mem_toList.mp hrow)
      have hkey : (bestOf x).key = k := hnew k List.mem_cons_self x hx
      rw [hkey]
      exact decide_eq_true hk
    have hnewRest : ∀ k' ∈ keys, ∀ x, new k' = some x → x.2.key = k' :=
      fun k' hk' => hnew k' (List.mem_cons_of_mem k hk')
    show rebuild new keys (rows.filter (fun row => decide (row.key ≠ k)) ++ _) = _
    rw [ih hnewRest hrest, List.filter_append, hown, List.filter_filter, List.flatMap_cons,
      List.append_assoc]
    refine congrArg (· ++ _) (List.filter_congr fun row _ => ?_)
    rw [Bool.eq_iff_iff]
    simp [not_or, and_comm]

/-- The new rows are those of the keys. -/
theorem filter_new (hnew : ∀ k ∈ keys, ∀ x, new k = some x → x.2.key = k) (p : MapKey → Bool) :
    ((keys.flatMap fun k => ((new k).map bestOf).toList).filter fun row => p row.key) =
      (keys.filter p).flatMap fun k => ((new k).map bestOf).toList := by
  induction keys with
  | nil => rfl
  | cons k keys ih =>
    have hown : (((new k).map bestOf).toList.filter fun row => p row.key) =
        if p k then ((new k).map bestOf).toList else [] := by
      cases hx : new k with
      | none => simp
      | some x =>
        have hkey : (bestOf x).key = k := hnew k List.mem_cons_self x hx
        simp [List.filter_cons, hkey]
    rw [List.flatMap_cons, List.filter_append, hown,
      ih fun k' hk' => hnew k' (List.mem_cons_of_mem k hk')]
    cases hp : p k with
    | true => rw [List.filter_cons_of_pos hp, List.flatMap_cons, if_pos rfl]
    | false => rw [List.filter_cons_of_neg (by simp [hp]), if_neg (by simp), List.nil_append]

/-- The rows of a key that was rebuilt are its new one, those of another key are as before. -/
theorem rowsOf_rebuild (hnew : ∀ k ∈ keys, ∀ x, new k = some x → x.2.key = k) (hkeys : keys.Nodup)
    (rows : List BestScore) (k : MapKey) :
    rowsOf k (rebuild new keys rows) =
      if k ∈ keys then ((new k).map bestOf).toList else rowsOf k rows := by
  rw [rebuild_eq hnew hkeys, rowsOf_append, rowsOf_filter]
  have hadded : rowsOf k (keys.flatMap fun k => ((new k).map bestOf).toList) =
      (keys.filter fun k' => decide (k' = k)).flatMap fun k => ((new k).map bestOf).toList :=
    filter_new hnew fun k' => decide (k' = k)
  rw [hadded]
  by_cases hk : k ∈ keys
  · have hgone : ((rowsOf k rows).filter fun row => decide (row.key ∉ keys)) = [] := by
      refine List.filter_eq_nil_iff.mpr fun row hrow => ?_
      rw [(mem_rowsOf.mp hrow).2]
      simpa using hk
    have hone : (keys.filter fun k' => decide (k' = k)) = [k] := by
      rw [List.filter_eq, List.count_eq_one_of_mem hkeys hk]
      rfl
    rw [hgone, hone, if_pos hk]
    simp
  · have hstay : ((rowsOf k rows).filter fun row => decide (row.key ∉ keys)) = rowsOf k rows := by
      refine List.filter_eq_self.mpr fun row hrow => ?_
      rw [(mem_rowsOf.mp hrow).2]
      exact decide_eq_true hk
    have hnone : (keys.filter fun k' => decide (k' = k)) = [] := by
      refine List.filter_eq_nil_iff.mpr fun k' hk' heq => hk ?_
      rw [← of_decide_eq_true heq]
      exact hk'
    rw [hstay, hnone, if_neg hk]
    simp

/-- Rebuilding twice is rebuilding once. -/
theorem rebuild_rebuild (hnew : ∀ k ∈ keys, ∀ x, new k = some x → x.2.key = k) (hkeys : keys.Nodup)
    (rows : List BestScore) :
    rebuild new keys (rebuild new keys rows) = rebuild new keys rows := by
  have hgone : ((keys.flatMap fun k => ((new k).map bestOf).toList).filter
      fun row => decide (row.key ∉ keys)) = [] := by
    rw [filter_new hnew fun k => decide (k ∉ keys), List.filter_eq_nil_iff.mpr (by simp)]
    rfl
  rw [rebuild_eq hnew hkeys (rebuild new keys rows), rebuild_eq hnew hkeys rows,
    List.filter_append, List.filter_filter, hgone, List.append_nil]
  simp only [Bool.and_self]

end Rebuild

/-! ## The repair -/

variable (negativeMaps : BeatmapId → Bool)

/-- Without Difficulty Adjust nothing would be rebuilt. -/
theorem retire_eq (t : Tables) :
    (t.retire upper srv negativeMaps).1 =
      { t with
        scores := t.scores.map (t.stripped upper)
        bestScores := rebuild (t.replacements upper srv) t.keys t.bestScores
        stats := fun um =>
          if um ∈ t.userModes then (t.stats um).map (recalculated negativeMaps
            (rebuild (t.replacements upper srv) t.keys t.bestScores) um)
          else t.stats um } := by
  unfold retire
  split
  · next hnone =>
    have hrows : t.daRows = [] := List.isEmpty_iff.mp hnone
    have hkeys : t.keys = [] := by simp [keys, hrows]
    have hmodes : ∀ um, um ∉ t.userModes := fun um hum => by
      obtain ⟨k, hk, -⟩ := mem_userModes.mp hum
      rw [hkeys] at hk
      cases hk
    have hstripped : t.scores.map (t.stripped upper) = t.scores := by
      refine (Table.map_congr fun sc => ?_).trans t.scores.map_id
      simp [stripped, selects, mapIds, hrows]
    rw [hstripped, hkeys]
    simp only [hmodes, if_false]
    rfl
  · rfl

theorem replacements_key (t : Tables) (k : MapKey) (hk : k ∈ t.keys) (x : ScoreId × Score)
    (h : t.replacements upper srv k = some x) : x.2.key = k := by
  rw [replacements_eq upper srv t hk] at h
  exact ((mem_candidates upper srv).mp (List.argmax_mem h)).2.1

/-- The rows of a key after the repair. -/
theorem rowsOf_retire (t : Tables) (k : MapKey) :
    rowsOf k (t.retire upper srv negativeMaps).1.bestScores =
      if k ∈ t.keys then
        (((t.candidates upper srv k).argmax (·.2.pp)).map bestOf).toList
      else rowsOf k t.bestScores := by
  rw [retire_eq]
  show rowsOf k (rebuild _ _ _) = _
  rw [rowsOf_rebuild (replacements_key upper srv t) (nodup_keys t)]
  by_cases hk : k ∈ t.keys
  · rw [if_pos hk, if_pos hk, replacements_eq upper srv t hk]
  · rw [if_neg hk, if_neg hk]

/-- The repair of repaired tables selects the same rows. -/
theorem daRows_retire (t : Tables) :
    (t.retire upper srv negativeMaps).1.daRows =
      t.daRows.map fun x => (x.1, t.stripped upper x.2) := by
  rw [retire_eq, daRows, daRows]
  show ((t.scores.map (t.stripped upper)).toList.filter fun x => containsDa x.2.mods) = _
  rw [Table.toList_map, List.filter_map]
  refine congrArg (List.map _) (List.filter_congr fun x _ => ?_)
  show containsDa (t.stripped upper x.2).mods = _
  rw [mods_stripped]

theorem stripped_stripped (t : Tables) (sc : Score) :
    t.stripped upper (t.stripped upper sc) = t.stripped upper sc := by
  cases hda : hasDifficultyAdjust upper sc.mods with
  | false => rw [stripped_of_not upper hda, stripped_of_not upper hda]
  | true =>
    cases hselects : t.selects sc with
    | false => simp [stripped, hselects]
    | true =>
      have hstrip : t.stripped upper sc = { sc with pp := 0 } := by simp [stripped, hselects, hda]
      rw [hstrip, stripped]
      split <;> rfl

/-- **Running the repair again changes no row.** -/
theorem retire_retire (t : Tables) :
    ((t.retire upper srv negativeMaps).1.retire upper srv negativeMaps).1 =
      (t.retire upper srv negativeMaps).1 := by
  have hrows := daRows_retire upper srv negativeMaps t
  generalize hu : (t.retire upper srv negativeMaps).1 = u at hrows
  have hprojection : ∀ {β : Type} (f : Score → β), (∀ sc, f (t.stripped upper sc) = f sc) →
      (u.daRows.map fun x => f x.2) = t.daRows.map fun x => f x.2 := by
    intro β f hf
    rw [hrows, List.map_map]
    exact List.map_congr_left fun x _ => hf x.2
  have hkeys : u.keys = t.keys := by
    rw [keys, keys, hprojection Score.key (key_stripped upper t)]
  have hmodes : u.userModes = t.userModes := by
    rw [userModes, userModes, hprojection (fun sc => sc.key.userMode) fun sc => by
      rw [key_stripped]]
  have hselects : u.selects = t.selects := by
    funext sc
    rw [selects, selects, mapIds, mapIds, userIds, userIds,
      hprojection Score.beatmapId fun sc => congrArg MapKey.beatmapId (key_stripped upper t sc),
      hprojection Score.userId fun sc => congrArg MapKey.userId (key_stripped upper t sc)]
  have hstripped : u.stripped upper = t.stripped upper := by
    funext sc
    rw [stripped, stripped, hselects]
  have heq := (retire_eq upper srv negativeMaps t).symm.trans hu
  have hscores : u.scores = t.scores.map (t.stripped upper) :=
    (congrArg (fun v : Tables => v.scores) heq).symm
  have hbest : u.bestScores = rebuild (t.replacements upper srv) t.keys t.bestScores :=
    (congrArg (fun v : Tables => v.bestScores) heq).symm
  have hpolicies : u.policies = t.policies := (congrArg Tables.policies heq).symm
  have hsame : u.scores.map (u.stripped upper) = u.scores := by
    rw [hstripped, hscores, Table.map_map]
    exact Table.map_congr (stripped_stripped upper t)
  have hreplacements : u.replacements upper srv = t.replacements upper srv := by
    have haccepts : u.accepts upper srv = t.accepts upper srv := by
      funext sc
      rw [accepts, accepts, hpolicies]
    have hselected : u.selected upper = t.selected upper := by
      rw [selected, hsame, hselects, hscores, selected]
    have hconsider : u.consider upper srv = t.consider upper srv := by
      funext st x
      rw [consider, consider, hkeys, haccepts]
    rw [replacements, replacements, hselected, hconsider]
  have hrebuilt : rebuild (u.replacements upper srv) u.keys u.bestScores = u.bestScores := by
    rw [hreplacements, hkeys, hbest]
    exact rebuild_rebuild (replacements_key upper srv t) (nodup_keys t) t.bestScores
  have hstats : (fun um => if um ∈ u.userModes then
      (u.stats um).map (recalculated negativeMaps u.bestScores um) else u.stats um) = u.stats := by
    funext um
    have hbefore : u.stats um = if um ∈ t.userModes then (t.stats um).map
        (recalculated negativeMaps u.bestScores um) else t.stats um := by
      rw [hbest]
      exact (congrFun (congrArg Tables.stats heq) um).symm
    rw [hmodes, hbefore]
    split
    · rw [Option.map_map]
      rfl
    · rfl
  rw [retire_eq, hsame, hrebuilt, hstats]

/-! ## The live path -/

/-- The user, the mode and the beatmap have a play with Difficulty Adjust. -/
def Adjusted (t : Tables) (k : MapKey) : Prop :=
  ∃ sid sc, t.scores.row sid = some sc ∧ sc.key = k ∧ hasDifficultyAdjust upper sc.mods = true

/-- The policies and the checksums under which PP was granted are the present ones. -/
def Unchanged (t : Tables) : Prop := { t.policies with scores := t.scores }.Granted srv

/-- They are after plays alone. -/
theorem unchanged_of_runs {srv : Deployment} {h : List (Event × State)} {s : State}
    (hrun : Runs srv (fun _ e => e.isQuiet = true) h s) (rows : List BestScore) :
    Unchanged srv.toServer ⟨⟨s.scores, rows⟩, s.stats, s⟩ :=
  hrun.granted

/-- Every processed score that can get PP has some. -/
def PositivePp (t : Tables) : Prop :=
  ∀ sid sc, t.scores.row sid = some sc → sc.processed = true →
    hasDifficultyAdjust upper sc.mods = false → canGetPp srv sc = true → 0 < sc.pp

/-- The calls for the user's processed scores without Difficulty Adjust, in the order of their
ids. -/
def liveCalls (t : Tables) (uid : UserId) (calculated : ScoreId → Option ℚ) :
    List (ScoreId × Option ℚ) :=
  (t.scores.toList.filter fun x => decide (x.2.userId = uid) && x.2.processed &&
    !hasDifficultyAdjust upper x.2.mods).map fun x => (x.1, calculated x.1)

/-- **What the repair accepts is what can get PP.** -/
theorem accepts_iff {t : Tables} (hunchanged : t.Unchanged srv) (hpositive : t.PositivePp upper srv)
    {sid : ScoreId} {sc : Score} (hrow : t.scores.row sid = some sc) :
    t.accepts upper srv sc = true ↔ sc.processed = true ∧
      hasDifficultyAdjust upper sc.mods = false ∧ canGetPp srv sc = true := by
  constructor
  · intro h
    obtain ⟨bm, -, helig⟩ := (Option.any_eq_true _ _).mp h
    simp only [replacementIsEligible, Bool.and_eq_true, Bool.not_eq_true'] at helig
    obtain ⟨⟨⟨⟨⟨⟨⟨hprocessed, hpassed⟩, hranked⟩, -⟩, -⟩, -⟩, hda⟩, hmods⟩ := helig
    exact ⟨hprocessed, hda, by simp [canGetPp, hpassed, hranked, hmods]⟩
  · rintro ⟨hprocessed, hda, hcan⟩
    have hpp := hpositive sid sc hrow hprocessed hda hcan
    simp only [canGetPp, Bool.and_eq_true] at hcan
    obtain ⟨⟨hpassed, hranked⟩, hmods⟩ := hcan
    obtain ⟨bm, hbm, hchecksum, hgrants⟩ := hunchanged sid sc hrow hranked
    have hgrants : srv.grants (t.policies.effectivePolicy sc.beatmapId bm) .pp = true := hgrants
    refine (Option.any_eq_true _ _).mpr ⟨bm, hbm, ?_⟩
    simp [replacementIsEligible, hprocessed, hpassed, hranked, hgrants, hchecksum, hpp, hda, hmods]

/-- The rows that the live path awards under a key are those of the candidates. -/
theorem rowsOf_awarded {t : Tables} (hunchanged : t.Unchanged srv)
    (hpositive : t.PositivePp upper srv) (k : MapKey) (calculated : ScoreId → Option ℚ) :
    rowsOf k ((t.liveCalls upper k.userId calculated).filterMap
      (PpTables.awarded srv ⟨t.scores, []⟩)) = (t.candidates upper srv k).map bestOf := by
  have hawarded : ∀ x ∈ t.scores.toList.filter fun x => decide (x.2.userId = k.userId) &&
      x.2.processed && !hasDifficultyAdjust upper x.2.mods,
      (PpTables.awarded srv ⟨t.scores, []⟩ ∘ fun x => (x.1, calculated x.1)) x =
        (Option.guard (fun x : ScoreId × Score => canGetPp srv x.2) x).map bestOf := by
    intro x hx
    obtain ⟨hmem, hx⟩ := List.mem_filter.mp hx
    have hrow : t.scores.row x.1 = some x.2 := Table.mem_toList.mp hmem
    simp only [Bool.and_eq_true, Bool.not_eq_true', decide_eq_true_eq] at hx
    show ((t.scores.row x.1).bind fun sc => _) = _
    rw [hrow, Option.bind_some, Option.guard]
    split
    · next hcan =>
      have hpp := hpositive x.1 x.2 hrow hx.1.2 hx.2 hcan
      rw [awardedRow, if_pos hpp.ne']
      rfl
    · rfl
  rw [liveCalls, List.filterMap_map, List.filterMap_congr hawarded, ← List.map_filterMap,
    List.filterMap_eq_filter, rowsOf, List.filter_map, List.filter_filter, List.filter_filter,
    candidates]
  refine congrArg (List.map bestOf) (List.filter_congr fun x hx => ?_)
  have haccepts := accepts_iff upper srv hunchanged hpositive (Table.mem_toList.mp hx)
  show (decide (x.2.key = k) && canGetPp srv x.2 && (decide (x.2.userId = k.userId) &&
    x.2.processed && !hasDifficultyAdjust upper x.2.mods)) =
      (decide (x.2.key = k) && t.accepts upper srv x.2)
  rw [Bool.eq_iff_iff]
  simp only [Bool.and_eq_true, decide_eq_true_eq, Bool.not_eq_true', haccepts]
  constructor
  · rintro ⟨⟨hkey, hcan⟩, ⟨-, hprocessed⟩, hda⟩
    exact ⟨hkey, hprocessed, hda, hcan⟩
  · rintro ⟨hkey, hprocessed, hda, hcan⟩
    exact ⟨⟨hkey, hcan⟩, ⟨congrArg MapKey.userId hkey, hprocessed⟩, hda⟩

theorem nodup_liveCalls (t : Tables) (uid : UserId) (calculated : ScoreId → Option ℚ) :
    ((t.liveCalls upper uid calculated).map Prod.fst).Nodup := by
  rw [liveCalls, List.map_map]
  exact t.scores.nodup_toList.sublist (List.filter_sublist.map Prod.fst)

/-- **The repair agrees with the live path.** -/
theorem rowsOf_retire_live {t : Tables} (hunchanged : t.Unchanged srv)
    (hpositive : t.PositivePp upper srv) {k : MapKey} (hk : k ∈ t.keys)
    (calculated : ScoreId → Option ℚ) :
    rowsOf k (t.retire upper srv negativeMaps).1.bestScores =
      rowsOf k (PpTables.processAll srv (t.liveCalls upper k.userId calculated)
        ⟨t.scores, []⟩).bestScores := by
  rw [rowsOf_retire, if_pos hk, PpTables.rowsOf_processAll (nodup_liveCalls upper t _ _),
    rowsOf_awarded upper srv hunchanged hpositive, argmax_map]
  rfl

/-! ## The tables after the repair -/

/-- The acronyms of the table are in upper case. -/
def UpperCase (t : Tables) : Prop :=
  ∀ sid sc, t.scores.row sid = some sc → ∀ mod ∈ sc.mods, upper mod.acronym = mod.acronym

theorem containsDa_eq {t : Tables} (hupper : t.UpperCase upper) {sid : ScoreId} {sc : Score}
    (hrow : t.scores.row sid = some sc) :
    containsDa sc.mods = hasDifficultyAdjust upper sc.mods := by
  rw [Bool.eq_iff_iff, containsDa, hasDifficultyAdjust, List.any_eq_true, List.any_eq_true]
  constructor
  · rintro ⟨mod, hmod, hda⟩
    exact ⟨mod, hmod, by rw [hupper sid sc hrow mod hmod, hda]⟩
  · rintro ⟨mod, hmod, hda⟩
    rw [hupper sid sc hrow mod hmod] at hda
    exact ⟨mod, hmod, hda⟩

theorem mem_keys_iff {t : Tables} (hupper : t.UpperCase upper) {k : MapKey} :
    k ∈ t.keys ↔ t.Adjusted upper k := by
  rw [mem_keys]
  constructor
  · rintro ⟨sid, sc, hrow, hkey, hda⟩
    exact ⟨sid, sc, hrow, hkey, (containsDa_eq upper hupper hrow).symm.trans hda⟩
  · rintro ⟨sid, sc, hrow, hkey, hda⟩
    exact ⟨sid, sc, hrow, hkey, (containsDa_eq upper hupper hrow).trans hda⟩

/-- Every score with Difficulty Adjust loses its PP, and no other score changes. -/
theorem scores_retire {t : Tables} (hupper : t.UpperCase upper) (sid : ScoreId) :
    (t.retire upper srv negativeMaps).1.scores.row sid = (t.scores.row sid).map fun sc =>
      if hasDifficultyAdjust upper sc.mods then { sc with pp := 0 } else sc := by
  rw [retire_eq]
  show (t.scores.row sid).map (t.stripped upper) = _
  cases hrow : t.scores.row sid with
  | none => rfl
  | some sc =>
    rw [Option.map_some, Option.map_some]
    refine congrArg some ?_
    cases hda : hasDifficultyAdjust upper sc.mods with
    | false =>
      rw [stripped_of_not upper hda, if_neg (by simp)]
    | true =>
      have hselects : t.selects sc = true :=
        selects_of_mem_keys ((mem_keys_iff upper hupper).mpr ⟨sid, sc, hrow, rfl, hda⟩)
      simp [stripped, hselects, hda]

/-- The statistics of the affected users are recalculated. -/
theorem stats_retire {t : Tables} (hupper : t.UpperCase upper) {k : MapKey}
    (hk : t.Adjusted upper k) :
    (t.retire upper srv negativeMaps).1.stats k.userMode =
      (t.stats k.userMode).map (recalculated negativeMaps
        (t.retire upper srv negativeMaps).1.bestScores k.userMode) := by
  rw [retire_eq]
  exact if_pos (mem_userModes.mpr ⟨k, (mem_keys_iff upper hupper).mpr hk, rfl⟩)

/-- The row of a key is that of a candidate with the most PP. -/
theorem rowsOf_retire_cases {t : Tables} {k : MapKey} (hk : k ∈ t.keys) :
    (rowsOf k (t.retire upper srv negativeMaps).1.bestScores = [] ∧
      t.candidates upper srv k = []) ∨
    ∃ x ∈ t.candidates upper srv k,
      rowsOf k (t.retire upper srv negativeMaps).1.bestScores = [bestOf x] ∧
      ∀ y ∈ t.candidates upper srv k, y.2.pp ≤ x.2.pp := by
  rw [rowsOf_retire, if_pos hk]
  cases hbest : (t.candidates upper srv k).argmax (·.2.pp) with
  | none => exact .inl ⟨rfl, List.argmax_eq_none.mp hbest⟩
  | some x =>
    exact .inr ⟨x, List.argmax_mem hbest, rfl, fun y hy =>
      List.le_of_mem_argmax (f := fun x : ScoreId × Score => x.2.pp) hy hbest⟩

/-- **Retiring the PP of Difficulty Adjust agrees with live accounting.**  A key with such a play
has at most one row; it has one exactly if a score of the key is eligible; the row is that of an
eligible score with the greatest PP, and where policies and checksums have not changed and PP is
positive, it is the row that the live path leaves for the other plays.  The rows of other keys and
the other scores stay, the affected users get their totals anew, and a second run changes
nothing. -/
theorem retire_agrees (t : Tables) (hupper : t.UpperCase upper) :
    let t' := (t.retire upper srv negativeMaps).1
    (∀ k, t.Adjusted upper k →
      (rowsOf k t'.bestScores).length ≤ 1 ∧
      (rowsOf k t'.bestScores ≠ [] ↔ ∃ sid sc, t.scores.row sid = some sc ∧ sc.key = k ∧
        t.accepts upper srv sc = true) ∧
      (∀ row ∈ rowsOf k t'.bestScores, ∃ sc, t.scores.row row.scoreId = some sc ∧ sc.key = k ∧
        t.accepts upper srv sc = true ∧ row.pp = sc.pp ∧ row.acc = sc.accuracy ∧
        ∀ sid other, t.scores.row sid = some other → other.key = k →
          t.accepts upper srv other = true → other.pp ≤ row.pp) ∧
      (t.Unchanged srv → t.PositivePp upper srv → ∀ calculated,
        rowsOf k t'.bestScores = rowsOf k (PpTables.processAll srv
          (t.liveCalls upper k.userId calculated) ⟨t.scores, []⟩).bestScores) ∧
      t'.stats k.userMode =
        (t.stats k.userMode).map (recalculated negativeMaps t'.bestScores k.userMode)) ∧
    (∀ k, ¬ t.Adjusted upper k → rowsOf k t'.bestScores = rowsOf k t.bestScores) ∧
    (∀ sid, t'.scores.row sid = (t.scores.row sid).map fun sc =>
      if hasDifficultyAdjust upper sc.mods then { sc with pp := 0 } else sc) ∧
    (t'.retire upper srv negativeMaps).1 = t' := by
  intro t'
  refine ⟨fun k hadjusted => ?_, fun k hother => ?_, scores_retire upper srv negativeMaps hupper,
    retire_retire upper srv negativeMaps t⟩
  · have hk : k ∈ t.keys := (mem_keys_iff upper hupper).mpr hadjusted
    have hlive := fun hunchanged hpositive =>
      rowsOf_retire_live upper srv negativeMaps hunchanged hpositive hk
    have hstats := stats_retire upper srv negativeMaps hupper hadjusted
    rcases rowsOf_retire_cases upper srv negativeMaps hk with ⟨hrows, hnone⟩ |
      ⟨x, hx, hrows, hmax⟩
    · refine ⟨by rw [hrows]; exact Nat.zero_le 1, ⟨fun h => absurd hrows h, ?_⟩, ?_, hlive, hstats⟩
      · rintro ⟨sid, sc, hsc⟩
        have hmem : (sid, sc) ∈ t.candidates upper srv k := (mem_candidates upper srv).mpr hsc
        rw [hnone] at hmem
        cases hmem
      · rw [hrows]
        simp
    · have hcandidate := (mem_candidates upper srv).mp hx
      refine ⟨by rw [hrows]; exact Nat.le_refl 1,
        ⟨fun _ => ⟨x.1, x.2, hcandidate⟩, fun _ => ?_⟩, ?_, hlive, hstats⟩
      · rw [hrows]
        exact List.cons_ne_nil _ _
      · rw [hrows]
        intro row hrow
        obtain rfl := List.mem_singleton.mp hrow
        obtain ⟨hx, hkey, haccepts⟩ := hcandidate
        refine ⟨x.2, hx, hkey, haccepts, rfl, rfl, fun sid other hother hkey haccepts => ?_⟩
        exact hmax (sid, other) ((mem_candidates upper srv).mpr ⟨hother, hkey, haccepts⟩)
  · show rowsOf k (t.retire upper srv negativeMaps).1.bestScores = _
    rw [rowsOf_retire, if_neg fun hk => hother ((mem_keys_iff upper hupper).mp hk)]

/-! ## A retired best -/

/-- A play of user 7 on the map 1. -/
def playOn (acronym : String) (pp : ℚ) : Score where
  userId := 7
  beatmapId := 1
  mode := .osu
  mods := [{ acronym }]
  passed := true
  rank := .s
  totalScore := 1000
  totalScoreWithoutMods := 1000
  accuracy := 1
  maxCombo := 10
  mapMd5 := 4
  startedAt := 0
  endedAt := 1
  n300 := 10
  n100 := 0
  n50 := 0
  nmiss := 0
  ngeki := 0
  nkatu := 0
  nlargeTickMiss := 0
  nlargeTickHit := 0
  nsmallTickHit := 0
  nsliderTailHit := 0
  maximumStatistics := fun _ => 10
  playlistItemId := none
  roomId := none
  pp := pp
  processed := true
  ranked := true
  leaderboardEligible := true
  rankedScoreEligible := true

/-- The best of user 7 on the map 1 has Difficulty Adjust. -/
def adjustedBest : Tables where
  scores := (Table.empty.insert (playOn "DA" 300)).insert (playOn "HD" 100)
  bestScores := [⟨7, 1, 1, .osu, 300, 1⟩]
  stats := fun _ => some {}
  policies :=
    { State.empty with
      beatmaps := Catalog.empty.put 1 { setId := 1, checksum := 4, status := .ranked } }

theorem row_adjustedBest {sid : ScoreId} {sc : Score} (h : adjustedBest.scores.row sid = some sc) :
    sid = 1 ∧ sc = playOn "DA" 300 ∨ sid = 2 ∧ sc = playOn "HD" 100 := by
  have h : (if sid = 2 then some (playOn "HD" 100) else
      if sid = 1 then some (playOn "DA" 300) else none) = some sc := h
  split at h
  · next hsid => exact .inr ⟨hsid, (Option.some.inj h).symm⟩
  · split at h
    · next hsid => exact .inl ⟨hsid, (Option.some.inj h).symm⟩
    · cases h

theorem retire_agrees_adjustedBest :
    ∃ row, rowsOf ⟨7, 1, .osu⟩ (adjustedBest.retire String.toUpper plainServer.toServer
      fun _ => false).1.bestScores = [row] ∧ row.scoreId = 2 ∧ row.pp = 100 := by
  have hupper : adjustedBest.UpperCase String.toUpper := by
    intro sid sc hrow mod hmod
    rcases row_adjustedBest hrow with ⟨-, rfl⟩ | ⟨-, rfl⟩
    · obtain rfl := List.mem_singleton.mp hmod
      decide +kernel
    · obtain rfl := List.mem_singleton.mp hmod
      decide +kernel
  obtain ⟨hkeys, -⟩ := retire_agrees String.toUpper plainServer.toServer (fun _ => false)
    adjustedBest hupper
  obtain ⟨hone, hexists, hbest, -⟩ := hkeys ⟨7, 1, .osu⟩
    ⟨1, playOn "DA" 300, rfl, rfl, by decide +kernel⟩
  have hsome := hexists.mpr ⟨2, playOn "HD" 100, rfl, rfl, by decide +kernel⟩
  obtain ⟨row, hrow⟩ := List.length_eq_one_iff.mp
    (Nat.le_antisymm hone (List.length_pos_iff.mpr hsome))
  have hmem : row ∈ rowsOf ⟨7, 1, .osu⟩ (adjustedBest.retire String.toUpper plainServer.toServer
      fun _ => false).1.bestScores := by
    rw [hrow]
    exact List.mem_singleton_self row
  obtain ⟨sc, hsc, -, haccepts, hpp, -⟩ := hbest row hmem
  rcases row_adjustedBest hsc with ⟨-, rfl⟩ | ⟨hsid, rfl⟩
  · exact absurd haccepts (by decide +kernel)
  · exact ⟨row, hrow, hsid, hpp⟩

end Tables

end DifficultyAdjust

end Soms.Scores
