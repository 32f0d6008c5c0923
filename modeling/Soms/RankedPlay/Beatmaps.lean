import Soms.Library.Keyset
import Soms.Scores.Policy

/-!
# The maps of Ranked Play

`ranked_beatmaps` of `service/matchmaking_service.py`, which reads the whole catalogue or, when a
limit is given, page by page until enough maps were found.
-/

namespace Soms.RankedPlay

open Scores (BeatmapId SetId GameMode BeatmapRankStatus EffectivePolicy)

abbrev PresetId := Nat
abbrev PoolId := Nat

/-- A row of the beatmap table. -/
structure Chart where
  id : BeatmapId
  row : Scores.Beatmap
  /-- `checksum is not None`.  The policies are resolved for such rows only. -/
  hasChecksum : Bool
  mode : GameMode
  cs : ℚ
  difficultyRating : ℚ
  deriving DecidableEq

structure Beatmapset where
  trackId : Option Nat
  downloadDisabled : Bool
  deriving DecidableEq

structure MatchmakingMapPreset where
  rulesetId : Int
  variantId : Int
  minStars : ℚ
  maxStars : ℚ
  minLength : Int
  maxLength : Int
  beatmapIds : Option (List BeatmapId)

structure MatchmakingPool where
  id : PoolId
  rulesetId : Int
  variantId : Int
  active : Bool
  lobbySize : Int
  beatmapPresetId : Option PresetId

/-- Beatmaps in the order of their ids. -/
structure Charts where
  rows : List Chart
  ascending : rows.Pairwise fun a b => a.id < b.id

namespace Charts

def filter (charts : Charts) (p : Chart → Bool) : Charts :=
  ⟨charts.rows.filter p, charts.ascending.filter p⟩

/-- `.where(Beatmap.id > last_id)` -/
def behind (charts : Charts) (lastId : Option BeatmapId) : List Chart :=
  rowsAfter Chart.id (· < ·) charts.rows lastId

@[simp] theorem behind_none (charts : Charts) : charts.behind none = charts.rows :=
  rowsAfter_none charts.rows

/-- Behind the last row of a page are the rows that the page left out. -/
theorem behind_last (charts : Charts) {lastId : Option BeatmapId} {n : Nat} {last : Chart}
    (hlast : ((charts.behind lastId).take n).getLast? = some last) :
    charts.behind (some last.id) = (charts.behind lastId).drop n :=
  rowsAfter_getLast_take charts.ascending hlast

/-- Fewer rows are behind the last row of a full page. -/
theorem behind_lt (charts : Charts) {lastId : Option BeatmapId} {n : Nat} (hn : 0 < n)
    (hfull : n ≤ ((charts.behind lastId).take n).length) :
    (charts.behind (((charts.behind lastId).take n).getLast?.map Chart.id)).length <
      (charts.behind lastId).length := by
  cases hlast : ((charts.behind lastId).take n).getLast? with
  | none =>
    rw [List.getLast?_eq_none_iff.mp hlast, List.length_nil] at hfull
    omega
  | some last =>
    show (charts.behind (some last.id)).length < _
    rw [charts.behind_last hlast, List.length_drop]
    rw [List.length_take] at hfull
    omega

end Charts

/-- The tables. -/
structure Database where
  beatmaps : Charts
  beatmapsets : SetId → Option Beatmapset
  pools : PoolId → Option MatchmakingPool
  presets : PresetId → Option MatchmakingMapPreset
  policies : Scores.State

/-- An entry of the answer. -/
structure Card where
  beatmapId : BeatmapId
  beatmapsetId : SetId
  checksum : Scores.Checksum
  approved : BeatmapRankStatus
  difficultyRating : ℚ
  totalLength : Nat
  playmode : Int
  osuFileVersion : Nat := 14
  deriving DecidableEq

/-- `MINIMUM_RANKED_BEATMAPS` -/
def fewestRankedBeatmaps : Int := 10
def officialMinHitLength : Int := 60
def officialMaxHitLength : Int := 300

/-- `minimum_ranked_beatmaps` -/
def minimumRankedBeatmaps (pool : MatchmakingPool) : Nat :=
  (max fewestRankedBeatmaps (pool.lobbySize * 5)).toNat

/-- The policies, reviews and defaults that the queries for a page of beatmaps return. -/
def policiesOf (policies : Scores.State) (page : List Chart) : Scores.State :=
  { policies with
    mapPolicy := fun b => if b ∈ page.map Chart.id then policies.mapPolicy b else none
    setPolicy := fun setId =>
      if setId ∈ page.map fun chart => chart.row.setId then policies.setPolicy setId else none
    pendingReview := fun b setId => b ∈ page.map Chart.id && policies.pendingReview b setId }

/-- `get_effective_beatmap_policies(session, page)[chart.id]` -/
def effectivePolicy (policies : Scores.State) (page : List Chart) (chart : Chart) :
    EffectivePolicy :=
  (policiesOf policies page).effectivePolicy chart.id chart.row

/-- The conditions of the statement. -/
def selects (beatmapsets : SetId → Option Beatmapset) (rulesetId variant : Int)
    (preset : Option MatchmakingMapPreset) (chart : Chart) : Bool :=
  (beatmapsets chart.row.setId).any fun beatmapset =>
    GameMode.fromInt rulesetId.toNat == some chart.mode && !chart.row.deleted &&
    !beatmapset.downloadDisabled &&
    decide ((preset.elim officialMinHitLength (·.minLength)) ≤ chart.row.hitLength) &&
    decide (chart.row.hitLength ≤ (preset.elim officialMaxHitLength (·.maxLength))) &&
    chart.hasChecksum && (rulesetId != 3 || chart.cs == variant) &&
    (preset.isSome ||
      beatmapset.trackId.isSome &&
        (chart.row.status == .ranked || chart.row.status == .approved)) &&
    (preset.all fun p =>
      decide (p.minStars ≤ chart.difficultyRating) &&
      decide (chart.difficultyRating ≤ p.maxStars) &&
      p.beatmapIds.all fun ids => decide (chart.id ∈ ids))

/-- `statement` -/
def statement (db : Database) (rulesetId variant : Int) (preset : Option MatchmakingMapPreset) :
    Charts :=
  db.beatmaps.filter (selects db.beatmapsets rulesetId variant preset)

def card (policies : Scores.State) (page : List Chart) (rulesetId : Int) (chart : Chart) :
    Card where
  beatmapId := chart.id
  beatmapsetId := chart.row.setId
  checksum := chart.row.checksum
  approved := (effectivePolicy policies page chart).status
  difficultyRating := chart.difficultyRating
  totalLength := chart.row.totalLength
  playmode := rulesetId

/-- The loop over a page.  It returns whether the limit is reached. -/
def addPage (policies : Scores.State) (rulesetId : Int) (limit : Option Nat) (page : List Chart) :
    List Chart → List Card → List Card × Bool
  | [], result => (result, false)
  | chart :: rest, result =>
    let policy := effectivePolicy policies page chart
    if !policy.ppEnabled || !policy.leaderboardEnabled then
      addPage policies rulesetId limit page rest result
    else
      let result := result ++ [card policies page rulesetId chart]
      if limit.any (· ≤ result.length) then (result, true)
      else addPage policies rulesetId limit page rest result

def batchSize (limit : Option Nat) : Nat := max 64 (limit.getD 0 * 2)

theorem batchSize_pos (limit : Option Nat) : 0 < batchSize limit :=
  Nat.lt_of_lt_of_le (by decide) (Nat.le_max_left 64 (limit.getD 0 * 2))

/-- `page` -/
def Charts.page (charts : Charts) (limit : Option Nat) (lastId : Option BeatmapId) : List Chart :=
  if limit.isNone then charts.rows else (charts.behind lastId).take (batchSize limit)

/-- The loop over the pages. -/
def readPages (policies : Scores.State) (rulesetId : Int) (limit : Option Nat) (charts : Charts)
    (lastId : Option BeatmapId) (result : List Card) : List Card :=
  let beatmaps := charts.page limit lastId
  let added := addPage policies rulesetId limit beatmaps beatmaps result
  if added.2 then added.1
  else if limit.isNone ∨ beatmaps.length < batchSize limit then added.1
  else readPages policies rulesetId limit charts (beatmaps.getLast?.map Chart.id) added.1
termination_by (charts.behind lastId).length
decreasing_by
  rename_i hmore
  rw [not_or] at hmore
  have hpage : charts.page limit lastId = (charts.behind lastId).take (batchSize limit) :=
    if_neg hmore.1
  rw [hpage]
  exact charts.behind_lt (batchSize_pos limit) (hpage ▸ Nat.le_of_not_lt hmore.2)

/-- `ranked_beatmaps` from the check of the preset on. -/
def presetBeatmaps (db : Database) (rulesetId variant : Int)
    (preset : Option MatchmakingMapPreset) (limit : Option Nat) : List Card :=
  if preset.any fun p => (p.rulesetId, p.variantId) != (rulesetId, variant) then []
  else readPages db.policies rulesetId limit (statement db rulesetId variant preset) none []

def rankedBeatmaps (db : Database) (rulesetId variant : Int) (poolId : Option PoolId)
    (preset : Option MatchmakingMapPreset) (limit : Option Nat) : List Card :=
  if rulesetId ∉ [0, 1, 2, 3] || (rulesetId == 3 && variant ∉ [4, 7]) then []
  else
    match poolId with
    | none => presetBeatmaps db rulesetId variant preset limit
    | some poolId =>
      match db.pools poolId with
      | none => []
      | some pool =>
        if (pool.rulesetId, pool.variantId) != (rulesetId, variant) then []
        else
          match pool.beatmapPresetId with
          | none => presetBeatmaps db rulesetId variant preset limit
          | some id =>
            match db.presets id with
            | none => []
            | some preset => presetBeatmaps db rulesetId variant (some preset) limit

def rankedPoolAvailable (db : Database) (pool : MatchmakingPool) : Bool :=
  if !pool.active then false
  else
    let required := minimumRankedBeatmaps pool
    required ≤
      (rankedBeatmaps db pool.rulesetId pool.variantId (some pool.id) none (some required)).length

variable {policies : Scores.State} {rulesetId : Int} {limit : Nat} {page rest rows : List Chart}
  {chart : Chart} {charts : Charts} {lastId : Option BeatmapId} {result : List Card}

/-! ### One page -/

/-- For a beatmap of the page the queries return all that its policy depends on. -/
theorem effectivePolicy_eq (h : chart ∈ page) :
    effectivePolicy policies page chart = policies.effectivePolicy chart.id chart.row := by
  have hid : chart.id ∈ page.map Chart.id := List.mem_map_of_mem h
  have hset : chart.row.setId ∈ page.map fun chart => chart.row.setId := List.mem_map_of_mem h
  simp only [effectivePolicy, Scores.State.effectivePolicy, policiesOf, if_pos hid, if_pos hset,
    decide_eq_true hid, Bool.true_and]

/-- The maps of Ranked Play among some rows, each judged by itself. -/
def cards (policies : Scores.State) (rulesetId : Int) (rows : List Chart) : List Card :=
  (rows.filter fun chart =>
    (policies.effectivePolicy chart.id chart.row).ppEnabled &&
      (policies.effectivePolicy chart.id chart.row).leaderboardEnabled).map fun chart =>
    card policies [chart] rulesetId chart

@[simp] theorem cards_append (policies : Scores.State) (rulesetId : Int) (rows rest : List Chart) :
    cards policies rulesetId (rows ++ rest) =
      cards policies rulesetId rows ++ cards policies rulesetId rest := by
  simp [cards]

/-- A map of the page gets a card or none. -/
theorem addPage_cons (limit : Option Nat) (h : chart ∈ page) :
    addPage policies rulesetId limit page (chart :: rest) result =
      if cards policies rulesetId [chart] ≠ [] ∧
          limit.any (· ≤ (result ++ cards policies rulesetId [chart]).length) then
        (result ++ cards policies rulesetId [chart], true)
      else addPage policies rulesetId limit page rest (result ++ cards policies rulesetId [chart])
    := by
  have hcard : card policies page rulesetId chart = card policies [chart] rulesetId chart := by
    simp only [card, effectivePolicy_eq h, effectivePolicy_eq (List.mem_singleton_self chart)]
  rw [addPage, hcard]
  dsimp only
  rw [effectivePolicy_eq h]
  cases hpp : (policies.effectivePolicy chart.id chart.row).ppEnabled <;>
    cases hboard : (policies.effectivePolicy chart.id chart.row).leaderboardEnabled <;>
    simp [cards, hpp, hboard]

/-- Without a limit a page adds all its maps. -/
theorem addPage_none (h : ∀ chart ∈ rest, chart ∈ page) :
    addPage policies rulesetId none page rest result =
      (result ++ cards policies rulesetId rest, false) := by
  induction rest generalizing result with
  | nil => simp [addPage, cards]
  | cons chart rest ih =>
    obtain ⟨hchart, hrest⟩ := List.forall_mem_cons.mp h
    rw [addPage_cons none hchart, if_neg (by simp), ih hrest, List.append_assoc, ← cards_append,
      List.singleton_append]

/-- A page adds its maps up to the limit. -/
theorem addPage_some (h : ∀ chart ∈ rest, chart ∈ page) (hfew : result.length < limit) :
    addPage policies rulesetId (some limit) page rest result =
      ((result ++ cards policies rulesetId rest).take limit,
        decide (limit ≤ (result ++ cards policies rulesetId rest).length)) := by
  induction rest generalizing result with
  | nil =>
    have hnone : result ++ cards policies rulesetId [] = result := List.append_nil result
    rw [hnone, List.take_of_length_le (Nat.le_of_lt hfew), decide_eq_false (Nat.not_le_of_lt hfew)]
    rfl
  | cons chart rest ih =>
    obtain ⟨hchart, hrest⟩ := List.forall_mem_cons.mp h
    have hsplit : result ++ cards policies rulesetId (chart :: rest) =
        (result ++ cards policies rulesetId [chart]) ++ cards policies rulesetId rest := by
      rw [List.append_assoc, ← cards_append, List.singleton_append]
    have hone : (cards policies rulesetId [chart]).length ≤ 1 :=
      (List.length_map _).trans_le (List.length_filter_le _ _)
    rw [addPage_cons (some limit) hchart, hsplit]
    split
    · rename_i hreached
      have hlimit : (result ++ cards policies rulesetId [chart]).length = limit := by
        have hle := of_decide_eq_true hreached.2
        rw [List.length_append] at hle ⊢
        omega
      have hreach : limit ≤ ((result ++ cards policies rulesetId [chart]) ++
          cards policies rulesetId rest).length := by
        rw [List.length_append, hlimit]
        omega
      rw [decide_eq_true hreach, List.take_append_of_le_length (Nat.le_of_eq hlimit.symm), ← hlimit,
        List.take_length]
    · rename_i hmore
      apply ih hrest
      by_cases hcard : cards policies rulesetId [chart] = []
      · rwa [hcard, List.append_nil]
      · exact Nat.lt_of_not_le fun hle => hmore ⟨hcard, decide_eq_true hle⟩

/-! ### All pages -/

theorem readPages_none :
    readPages policies rulesetId none charts none [] = cards policies rulesetId charts.rows := by
  have hpage : charts.page none none = charts.rows := rfl
  rw [readPages]
  simp only [hpage, addPage_none fun _ h => h]
  rfl

/-- What a page leaves out is behind its last row. -/
theorem page_append_behind (charts : Charts) (limit : Nat) (lastId : Option BeatmapId) :
    charts.behind lastId = charts.page (some limit) lastId ++
      (charts.behind lastId).drop (batchSize (some limit)) :=
  (List.take_append_drop _ _).symm

/-- Page by page the maps behind a row are added up to the limit, whatever the pages leave out. -/
theorem readPages_some (hfew : result.length < limit) :
    readPages policies rulesetId (some limit) charts lastId result =
      (result ++ cards policies rulesetId (charts.behind lastId)).take limit := by
  fun_induction readPages policies rulesetId (some limit) charts lastId result with
  | case1 lastId result beatmaps added hreached =>
    have hadded : added = _ := addPage_some (fun _ h => h) hfew
    rw [hadded] at hreached ⊢
    rw [page_append_behind charts limit lastId, cards_append, ← List.append_assoc]
    exact (List.take_append_of_le_length (of_decide_eq_true hreached)).symm
  | case2 lastId result beatmaps added hreached hlast =>
    have hadded : added = _ := addPage_some (fun _ h => h) hfew
    have hshort : beatmaps.length < batchSize (some limit) := hlast.resolve_left (by simp)
    have hdrop : (charts.behind lastId).drop (batchSize (some limit)) = [] := by
      have hlength : beatmaps.length = min (batchSize (some limit)) (charts.behind lastId).length :=
        List.length_take
      exact List.drop_eq_nil_of_le (by omega)
    rw [hadded, page_append_behind charts limit lastId, hdrop, List.append_nil]
  | case3 lastId result beatmaps added hreached hmore ih =>
    have hadded : added = _ := addPage_some (fun _ h => h) hfew
    rw [hadded] at hreached ih ⊢
    have hlimit := Nat.lt_of_not_le fun hle => hreached (decide_eq_true hle)
    have htake := List.take_of_length_le (Nat.le_of_lt hlimit)
    have hfull : batchSize (some limit) ≤ beatmaps.length :=
      Nat.le_of_not_lt fun hshort => hmore (.inr hshort)
    dsimp only at ih ⊢
    rw [htake] at ih ⊢
    rw [ih hlimit]
    cases hlast : beatmaps.getLast? with
    | none =>
      rw [List.getLast?_eq_none_iff.mp hlast] at hfull
      exact absurd (batchSize_pos (some limit)) (Nat.not_lt_of_le hfull)
    | some last =>
      rw [page_append_behind charts limit lastId, cards_append, ← List.append_assoc]
      exact congrArg (fun rest => (_ ++ cards policies rulesetId rest).take limit)
        (charts.behind_last hlast)

/-! ### The answers -/

theorem presetBeatmaps_take (db : Database) (rulesetId variant : Int)
    (preset : Option MatchmakingMapPreset) (hlimit : 0 < limit) :
    presetBeatmaps db rulesetId variant preset (some limit) =
      (presetBeatmaps db rulesetId variant preset none).take limit := by
  unfold presetBeatmaps
  split
  · exact List.take_nil.symm
  · rw [readPages_none, readPages_some (List.length_nil.trans_lt hlimit), Charts.behind_none,
      List.nil_append]

/-- The limited query returns the first maps of the full one. -/
theorem rankedBeatmaps_take (db : Database) (rulesetId variant : Int) (poolId : Option PoolId)
    (preset : Option MatchmakingMapPreset) (hlimit : 0 < limit) :
    rankedBeatmaps db rulesetId variant poolId preset (some limit) =
      (rankedBeatmaps db rulesetId variant poolId preset none).take limit := by
  have hpreset := fun preset => presetBeatmaps_take db rulesetId variant preset hlimit
  unfold rankedBeatmaps
  split
  · exact List.take_nil.symm
  · cases poolId with
    | none => exact hpreset preset
    | some poolId =>
      dsimp only
      split
      · exact List.take_nil.symm
      · rename_i pool _
        split
        · exact List.take_nil.symm
        · cases pool.beatmapPresetId with
          | none => exact hpreset preset
          | some id =>
            dsimp only
            split
            · exact List.take_nil.symm
            · exact hpreset _

/-- The limited query returns the first maps of the full one, and a pool is available if the full
list is long enough. -/
theorem rankedBeatmaps_limit (db : Database) (rulesetId variant : Int) (poolId : Option PoolId)
    (preset : Option MatchmakingMapPreset) (pool : MatchmakingPool) (hlimit : 1 ≤ limit)
    (hactive : pool.active = true) :
    rankedBeatmaps db rulesetId variant poolId preset (some limit) =
        (rankedBeatmaps db rulesetId variant poolId preset none).take limit ∧
      (rankedPoolAvailable db pool = true ↔
        minimumRankedBeatmaps pool ≤
          (rankedBeatmaps db pool.rulesetId pool.variantId (some pool.id) none none).length) := by
  refine ⟨rankedBeatmaps_take db rulesetId variant poolId preset hlimit, ?_⟩
  have hrequired : 0 < minimumRankedBeatmaps pool := by
    unfold minimumRankedBeatmaps fewestRankedBeatmaps
    omega
  rw [rankedPoolAvailable, hactive]
  simp only [rankedBeatmaps_take _ _ _ _ _ hrequired, List.length_take, Bool.not_true,
    Bool.false_eq_true, if_false, decide_eq_true_eq, le_min_iff, le_refl, true_and]

/-- Two maps, the second of which upstream has not ranked. -/
def noPolicies : Database where
  beatmaps := ⟨[⟨4, ⟨1, 7, .ranked, false, none, 90, 80⟩, true, .osu, 4, 5⟩,
    ⟨9, ⟨1, 8, .pending, false, none, 90, 80⟩, true, .osu, 4, 5⟩], by simp⟩
  beatmapsets := fun _ => some ⟨some 1, false⟩
  pools := fun _ => some ⟨1, 0, 0, true, 2, none⟩
  presets := fun _ => none
  policies := .empty

theorem rankedBeatmaps_limit_noPolicies :
    rankedBeatmaps noPolicies 0 0 (some 1) none (some 1) =
        (rankedBeatmaps noPolicies 0 0 (some 1) none none).take 1 ∧
      (rankedPoolAvailable noPolicies ⟨1, 0, 0, true, 2, none⟩ = true ↔
        minimumRankedBeatmaps ⟨1, 0, 0, true, 2, none⟩ ≤
          (rankedBeatmaps noPolicies 0 0 (some 1) none none).length) :=
  rankedBeatmaps_limit noPolicies 0 0 (some 1) none ⟨1, 0, 0, true, 2, none⟩ (by decide) rfl

end Soms.RankedPlay
