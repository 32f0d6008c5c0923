import Mathlib
import Soms.Scores.Data

/-!
# The schedule of a beatmapset

The end of `_sync_locked`: the delay until the next pass, with its random jitter, and the
decision to keep the record.  A jitter may take away the whole delay, and the empty delay is read
as the end of the tracking.
-/

namespace Soms.Schedule

open Scores

/-- Floating point as far as the delay needs it.  `round` gives the result of an operation, none
where it is out of range and the next step raises; `microseconds` is `timedelta(seconds=…)`. -/
structure Floats where
  round : ℚ → Option ℚ
  log : ℚ → Option ℚ
  pow : ℚ → ℚ → Option ℚ
  microseconds : ℚ → Option Int
  round_int : ∀ {x y : ℚ} (n : Int), n ∈ Set.Icc 0 1200 → n ≤ x → round x = some y → n ≤ y
  round_le : ∀ {x y : ℚ}, 0 ≤ x → round x = some y → y ≤ 2 * x
  one_le_pow : ∀ {x y : ℚ}, 0 ≤ x → pow 2 x = some y → 1 ≤ y
  microseconds_int : ∀ {x : ℚ} {n : Int} (k : Int), k ≤ x → microseconds x = some n →
    k * 1000000 ≤ n
  le_microseconds : ∀ {x : ℚ} {n : Int}, microseconds x = some n → 1000000 * x - 1 ≤ n

/-- `random.randint` -/
structure Random where
  randint : Int → Int → Int
  bounds : ∀ {low high : Int}, low ≤ high → low ≤ randint low high ∧ randint low high ≤ high

/-- The microseconds from the first to the last `datetime`. -/
def maxTime : Int := 315537897599999999

/-- A `datetime`, in microseconds from the first one. -/
structure Datetime where
  us : Int
  us_le : us ≤ maxTime

/-- `datetime + timedelta`, which raises behind the last `datetime`. -/
def Datetime.add (time : Datetime) (delta : Int) : Option Datetime :=
  if h : time.us + delta ≤ maxTime then some ⟨time.us + delta, h⟩ else none

def base : ℚ := 1200
def tau : ℚ := 3600
def jitterMin : Int := -30
def jitterMax : Int := 30
def minDelta : ℚ := 1200
def growth : ℚ := 2
def graveyardDoublingPeriodDays : ℚ := 30
def graveyardMaxDays : ℚ := 365

/-- `LOCAL_RANK_MAX_SYNC_INTERVAL`, six hours. -/
def localRankMaxSyncInterval : Int := 6 * 3600 * 1000000

/-- `STATUS_FACTOR` -/
def statusFactor : BeatmapRankStatus → Option ℚ
  | .wip | .pending => some (1 / 2)
  | .graveyard => some 1
  | _ => none

/-- A difficulty of the snapshot. -/
structure SnapshotBeatmap where
  id : BeatmapId
  checksum : Checksum
  ranked : BeatmapRankStatus

/-- `EnsuredBeatmapset` -/
structure Snapshot where
  ranked : BeatmapRankStatus
  rankedDate : Option Datetime
  lastUpdated : Datetime
  playCount : Int
  beatmaps : List SnapshotBeatmap

structure SavedBeatmapMeta where
  beatmapId : BeatmapId
  md5 : Checksum
  isDeleted : Bool
  beatmapStatus : BeatmapRankStatus

/-- `BeatmapSync` -/
structure Record where
  beatmaps : List SavedBeatmapMeta
  beatmapStatus : BeatmapRankStatus
  consecutiveNoChange : Nat
  nextSyncTime : Datetime

/-- `total_seconds` of a difference. -/
def totalSeconds (fl : Floats) (us : Int) : Option ℚ := fl.round (us / 1000000)

/-- `next_delta` of `calculate_next_sync_time`, the delay before the jitter. -/
def nextDelta (fl : Floats) (snap : Snapshot) (consecutiveNoChange : Nat) (now : Datetime) :
    Option ℚ :=
  match snap.ranked with
  | .qualified => do
    let rankedDate ← snap.rankedDate
    let timeToRanked ← totalSeconds fl (rankedDate.us + 7 * 86400 * 1000000 - now.us)
    let half ← fl.round (timeToRanked / 2)
    let baseline := max minDelta half
    return max minDelta baseline
  | .wip | .pending => do
    let secondsSinceUpdate ← totalSeconds fl (now.us - snap.lastUpdated.us)
    let periods ← fl.round (secondsSinceUpdate / tau)
    let factorUpdate := max 1 periods
    let plays ← fl.round (1 + snap.playCount)
    let logPlays ← fl.log plays
    let factorPlay ← fl.round (1 + logPlays)
    let factor ← statusFactor snap.ranked
    let played ← fl.round (base * factorPlay)
    let updated ← fl.round (played / factorUpdate)
    let baseline ← fl.round (updated * factor)
    let grown ← fl.pow growth (consecutiveNoChange + 1)
    let delta ← fl.round (baseline * grown)
    return max minDelta delta
  | .graveyard => do
    let daysSinceUpdate := (now.us - snap.lastUpdated.us) / (86400 * 1000000)
    let doublingPeriods ← fl.round (daysSinceUpdate / graveyardDoublingPeriodDays)
    let power ← fl.pow 2 doublingPeriods
    let delta ← fl.round (minDelta * power)
    return min (graveyardMaxDays * 86400) delta
  | _ => some minDelta

/-- The jitter in microseconds. -/
def jitter (fl : Floats) (random : Random) (nextDelta : ℚ) : Option Int :=
  if 86400 < nextDelta then do
    let tenth ← fl.round (nextDelta / 10)
    let minor := Scores.round tenth
    return 1000000 * random.randint (-minor) minor
  else
    return 60 * 1000000 * random.randint jitterMin jitterMax

/-- `calculate_next_sync_time`, in microseconds.  The outer option is none where it raises. -/
def calculateNextSyncTime (fl : Floats) (random : Random) (snap : Snapshot)
    (consecutiveNoChange : Nat) (now : Datetime) : Option (Option Int) :=
  if snap.ranked.givesRankedScore then some none
  else do
    let delta ← nextDelta fl snap consecutiveNoChange now
    let drawn ← jitter fl random delta
    let us ← fl.microseconds delta
    return some (us + drawn)

/-- The record with what the snapshot tells. -/
def Record.refreshed (record : Record) (snap : Snapshot) (changed : Bool) : Record :=
  if changed then
    { record with
      beatmaps := snap.beatmaps.map fun bm => ⟨bm.id, bm.checksum, false, bm.ranked⟩
      beatmapStatus := snap.ranked
      consecutiveNoChange := 0 }
  else { record with consecutiveNoChange := record.consecutiveNoChange + 1 }

/-- What the end of `_sync_locked` does by the delay it has computed.  `some none` is the record
deleted.  A `timedelta` of zero is false, as `None` is. -/
def settle (record : Record) (activeLocalRank : Bool) (later : Datetime)
    (nextTimeDelta : Option Int) : Option (Option Record) :=
  let nextTimeDelta :=
    if activeLocalRank then
      some (min ((nextTimeDelta.filter (· ≠ 0)).getD localRankMaxSyncInterval)
        localRankMaxSyncInterval)
    else nextTimeDelta
  match nextTimeDelta.filter (· ≠ 0) with
  | none => some none
  | some delta => (later.add delta).map fun nextSyncTime => some { record with nextSyncTime }

/-- The end of `_sync_locked`, from the lock on the set. -/
def syncLocked (fl : Floats) (random : Random) (beatmapsetExists : Bool) (snap : Snapshot)
    (changed activeLocalRank : Bool) (now later : Datetime) (record : Record) :
    Option (Option Record) :=
  if !beatmapsetExists then some none
  else
    let record := record.refreshed snap changed
    (calculateNextSyncTime fl random snap record.consecutiveNoChange now).bind
      (settle record activeLocalRank later)

/-- A set whose status is not final keeps its record, with a later time for the next pass, and no
record is deleted unless the status is final and no local rank is active. -/
def Kept (fl : Floats) (random : Random) (snap : Snapshot) (changed activeLocalRank : Bool)
    (now later : Datetime) (record : Record) : Prop :=
  ∀ result, syncLocked fl random true snap changed activeLocalRank now later record = some result →
    (snap.ranked.givesRankedScore = false →
      ∃ kept, result = some kept ∧ later.us < kept.nextSyncTime.us) ∧
    (result = none → snap.ranked.givesRankedScore = true ∧ activeLocalRank = false)

/-- The minutes drawn do not use up a delay of a day or less.  With a local rank active they may
use up all of it. -/
def Spared (fl : Floats) (random : Random) (snap : Snapshot) (changed activeLocalRank : Bool)
    (now : Datetime) (record : Record) : Prop :=
  ∀ delta us,
    nextDelta fl snap (record.refreshed snap changed).consecutiveNoChange now = some delta →
    fl.microseconds delta = some us → delta ≤ 86400 →
    -us < 60 * 1000000 * random.randint jitterMin jitterMax ∨
      activeLocalRank = true ∧ -us = 60 * 1000000 * random.randint jitterMin jitterMax

theorem round_cases (q : ℚ) : Scores.round q = ⌊q⌋ ∨ Scores.round q = ⌊q⌋ + 1 := by
  have hfloor : q.num / q.den = ⌊q⌋ := (Rat.floor_def q).symm
  unfold Scores.round
  dsimp only
  rw [hfloor]
  split_ifs
  · exact .inl rfl
  · exact .inr rfl
  · exact .inl rfl
  · exact .inr rfl

theorem round_le_add_one (q : ℚ) : (Scores.round q : ℚ) ≤ q + 1 := by
  have hfloor : (⌊q⌋ : ℚ) ≤ q := Int.floor_le q
  cases round_cases q with
  | inl h => rw [h]; linarith
  | inr h => rw [h]; push_cast; linarith

theorem round_nonneg {q : ℚ} (h : 0 ≤ q) : 0 ≤ Scores.round q := by
  have hfloor : 0 ≤ ⌊q⌋ := Int.floor_nonneg.mpr h
  cases round_cases q with
  | inl h => rw [h]; exact hfloor
  | inr h => rw [h]; omega

section

variable {fl : Floats} {random : Random} {snap : Snapshot} {changed activeLocalRank : Bool}
  {now later : Datetime} {record : Record}

/-- The jitter of a long delay is a part of it. -/
theorem jitter_long {delta : ℚ} {drawn us : Int} (hlong : 86400 < delta)
    (hdrawn : jitter fl random delta = some drawn) (hus : fl.microseconds delta = some us) :
    0 < us + drawn := by
  rw [jitter, if_pos hlong] at hdrawn
  simp only [Option.bind_eq_bind, Option.bind_eq_some_iff, Option.pure_def,
    Option.some.injEq] at hdrawn
  obtain ⟨tenth, htenth, hdrawn⟩ := hdrawn
  have hnonneg : 0 ≤ tenth := by
    have hint := fl.round_int 0 (by simp) (by push_cast; linarith) htenth
    simpa using hint
  have hle : tenth ≤ 2 * (delta / 10) := fl.round_le (by linarith) htenth
  have hminor : 0 ≤ Scores.round tenth := round_nonneg hnonneg
  have hlow : -Scores.round tenth ≤ random.randint (-Scores.round tenth) (Scores.round tenth) :=
    (random.bounds (by omega)).1
  have hround : (Scores.round tenth : ℚ) ≤ tenth + 1 := round_le_add_one tenth
  have hmicro : 1000000 * delta - 1 ≤ us := fl.le_microseconds hus
  have hdraw :
      (drawn : ℚ) = 1000000 * random.randint (-Scores.round tenth) (Scores.round tenth) := by
    rw [← hdrawn]
    push_cast
    rfl
  have hlowq : -(Scores.round tenth : ℚ) ≤
      random.randint (-Scores.round tenth) (Scores.round tenth) := by
    exact_mod_cast hlow
  have hpos : (0 : ℚ) < us + drawn := by
    rw [hdraw]
    linarith
  exact_mod_cast hpos

/-- A short delay loses the minutes drawn. -/
theorem jitter_short {delta : ℚ} (hshort : delta ≤ 86400) :
    jitter fl random delta = some (60 * 1000000 * random.randint jitterMin jitterMax) := by
  rw [jitter, if_neg (not_lt.mpr hshort)]
  rfl

theorem calculateNextSyncTime_ranked {noChange : Nat} (h : snap.ranked.givesRankedScore = true) :
    calculateNextSyncTime fl random snap noChange now = some none := by
  rw [calculateNextSyncTime, if_pos h]

theorem calculateNextSyncTime_eq_some {noChange : Nat} {found : Option Int}
    (h : snap.ranked.givesRankedScore = false) :
    calculateNextSyncTime fl random snap noChange now = some found ↔ ∃ delta drawn us,
      nextDelta fl snap noChange now = some delta ∧ jitter fl random delta = some drawn ∧
        fl.microseconds delta = some us ∧ found = some (us + drawn) := by
  rw [calculateNextSyncTime, if_neg (by simp [h])]
  simp only [Option.bind_eq_bind, Option.bind_eq_some_iff, Option.pure_def, Option.some.injEq]
  constructor
  · rintro ⟨delta, hdelta, drawn, hdrawn, us, hus, rfl⟩
    exact ⟨delta, drawn, us, hdelta, hdrawn, hus, rfl⟩
  · rintro ⟨delta, drawn, us, hdelta, hdrawn, hus, rfl⟩
    exact ⟨delta, hdelta, drawn, hdrawn, us, hus, rfl⟩

/-- The end of a pass on a set that is not final. -/
theorem syncLocked_eq_some {result : Option Record} (h : snap.ranked.givesRankedScore = false) :
    syncLocked fl random true snap changed activeLocalRank now later record = some result ↔
      ∃ delta drawn us,
        nextDelta fl snap (record.refreshed snap changed).consecutiveNoChange now = some delta ∧
        jitter fl random delta = some drawn ∧ fl.microseconds delta = some us ∧
        settle (record.refreshed snap changed) activeLocalRank later (some (us + drawn)) =
          some result := by
  have hopen : syncLocked fl random true snap changed activeLocalRank now later record =
      (calculateNextSyncTime fl random snap (record.refreshed snap changed).consecutiveNoChange
        now).bind (settle (record.refreshed snap changed) activeLocalRank later) := rfl
  rw [hopen, Option.bind_eq_some_iff]
  constructor
  · rintro ⟨found, hfound, hsettle⟩
    obtain ⟨delta, drawn, us, hdelta, hdrawn, hus, rfl⟩ :=
      (calculateNextSyncTime_eq_some h).mp hfound
    exact ⟨delta, drawn, us, hdelta, hdrawn, hus, hsettle⟩
  · rintro ⟨delta, drawn, us, hdelta, hdrawn, hus, hsettle⟩
    exact ⟨_, (calculateNextSyncTime_eq_some h).mpr ⟨delta, drawn, us, hdelta, hdrawn, hus, rfl⟩,
      hsettle⟩

/-- The delay as `settle` reads it. -/
def effective (activeLocalRank : Bool) (delta : Int) : Int :=
  if activeLocalRank then
    min (if delta = 0 then localRankMaxSyncInterval else delta) localRankMaxSyncInterval
  else delta

theorem settle_some (delta : Int) :
    settle record activeLocalRank later (some delta) =
      if effective activeLocalRank delta = 0 then some none
      else (later.add (effective activeLocalRank delta)).map
        fun nextSyncTime => some { record with nextSyncTime } := by
  have hfilter : ∀ n : Int, (some n).filter (· ≠ 0) = if n = 0 then none else some n := by
    intro n
    by_cases hn : n = 0
    · simp [hn]
    · simp [hn]
  have hgetD : ((some delta).filter (· ≠ 0)).getD localRankMaxSyncInterval =
      if delta = 0 then localRankMaxSyncInterval else delta := by
    rw [hfilter]
    split
    · rfl
    · rfl
  have heffective : (if activeLocalRank then
      some (min (((some delta).filter (· ≠ 0)).getD localRankMaxSyncInterval)
        localRankMaxSyncInterval)
      else some delta) = some (effective activeLocalRank delta) := by
    rw [hgetD, effective]
    split
    · rfl
    · rfl
  rw [settle, heffective, hfilter]
  split
  · rename_i hnone
    split at hnone
    · rename_i hzero
      rw [if_pos hzero]
    · cases hnone
  · rename_i n hsome
    split at hsome
    · cases hsome
    · rename_i hzero
      cases hsome
      rw [if_neg hzero]

/-- A record is kept for a later time if the delay is above zero, and with a local rank active if
it is zero. -/
theorem effective_pos_iff {delta : Int} : 0 < effective activeLocalRank delta ↔
    0 < delta ∨ activeLocalRank = true ∧ delta = 0 := by
  have hmax : 0 < localRankMaxSyncInterval := by decide
  cases activeLocalRank with
  | true =>
    rw [effective, if_pos rfl]
    split
    · rename_i hzero
      simp [hmax, hzero]
    · rename_i hzero
      simp [hmax, hzero]
  | false => simp [effective]

theorem settle_of_pos {delta : Int} {result : Option Record}
    (hdelta : 0 < effective activeLocalRank delta)
    (h : settle record activeLocalRank later (some delta) = some result) :
    ∃ kept, result = some kept ∧ later.us < kept.nextSyncTime.us := by
  rw [settle_some, if_neg (by omega), Datetime.add] at h
  split at h
  · cases h
    refine ⟨_, rfl, ?_⟩
    dsimp only
    omega
  · cases h

/-- Otherwise it is deleted, or kept for a time already past. -/
theorem settle_of_not_pos {delta : Int} (hdelta : ¬ 0 < effective activeLocalRank delta) :
    ∃ result, settle record activeLocalRank later (some delta) = some result ∧
      ∀ kept, result = some kept → kept.nextSyncTime.us ≤ later.us := by
  rw [settle_some]
  split
  · exact ⟨none, rfl, fun _ h => nomatch h⟩
  · have hle : later.us + effective activeLocalRank delta ≤ maxTime := by
      have hlater := later.us_le
      omega
    rw [Datetime.add, dif_pos hle]
    refine ⟨_, rfl, fun kept hkept => ?_⟩
    cases hkept
    dsimp only
    omega

/-- Without a delay the record is deleted unless a local rank is active. -/
theorem settle_none : settle record activeLocalRank later none =
    if activeLocalRank then (later.add localRankMaxSyncInterval).map
      fun nextSyncTime => some { record with nextSyncTime }
    else some none := by
  cases activeLocalRank with
  | true => rfl
  | false => rfl

/-- No delay before the jitter is shorter than twenty minutes. -/
theorem le_nextDelta {noChange : Nat} {delta : ℚ} (hpast : snap.lastUpdated.us ≤ now.us)
    (h : nextDelta fl snap noChange now = some delta) : 1200 ≤ delta := by
  have hmin : ∀ x : ℚ, 1200 ≤ max minDelta x := le_max_left (1200 : ℚ)
  unfold nextDelta at h
  split at h
  · simp only [Option.bind_eq_bind, Option.bind_eq_some_iff, Option.pure_def,
      Option.some.injEq] at h
    obtain ⟨_, _, _, _, half, _, rfl⟩ := h
    exact hmin _
  · simp only [Option.bind_eq_bind, Option.bind_eq_some_iff, Option.pure_def,
      Option.some.injEq] at h
    obtain ⟨_, _, _, _, _, _, _, _, _, _, _, _, _, _, _, _, _, _, _, _, last, _, rfl⟩ := h
    exact hmin _
  · simp only [Option.bind_eq_bind, Option.bind_eq_some_iff, Option.pure_def,
      Option.some.injEq] at h
    obtain ⟨_, _, _, _, _, _, _, _, _, _, _, _, _, _, _, _, _, _, _, _, last, _, rfl⟩ := h
    exact hmin _
  · simp only [Option.bind_eq_bind, Option.bind_eq_some_iff, Option.pure_def,
      Option.some.injEq] at h
    obtain ⟨periods, hperiods, power, hpower, grown, hgrown, rfl⟩ := h
    have hdays : 0 ≤ (now.us - snap.lastUpdated.us) / (86400 * 1000000) :=
      Int.ediv_nonneg (by omega) (by norm_num)
    have hquotient : (0 : ℚ) ≤
        ((now.us - snap.lastUpdated.us) / (86400 * 1000000) : Int) / graveyardDoublingPeriodDays :=
      div_nonneg (by exact_mod_cast hdays) (by norm_num [graveyardDoublingPeriodDays])
    have hnonneg : 0 ≤ periods := by
      have hint := fl.round_int 0 (by simp) (by exact_mod_cast hquotient) hperiods
      simpa using hint
    have hpow : 1 ≤ power := fl.one_le_pow hnonneg hpower
    have hproduct : ((1200 : Int) : ℚ) ≤ minDelta * power := by
      rw [minDelta]
      push_cast
      linarith
    have hdelta : ((1200 : Int) : ℚ) ≤ grown := fl.round_int 1200 (by simp) hproduct hgrown
    refine le_min ?_ (by exact_mod_cast hdelta)
    norm_num [graveyardMaxDays]
  · cases h
    exact le_refl _

/-- Only a draw of minus twenty minutes or less uses a delay up. -/
theorem Spared.of_draw (hpast : snap.lastUpdated.us ≤ now.us)
    (hdraw : -20 < random.randint jitterMin jitterMax) :
    Spared fl random snap changed activeLocalRank now record := by
  intro delta us hdelta hus _
  have hmin : ((1200 : Int) : ℚ) ≤ delta := by exact_mod_cast le_nextDelta hpast hdelta
  have hmicro := fl.microseconds_int 1200 hmin hus
  left
  omega

end

/-- The schedule keeps every set that may still change exactly if its status is final or the
minutes drawn spare the delay. -/
theorem kept_iff (fl : Floats) (random : Random) (snap : Snapshot) (changed activeLocalRank : Bool)
    (now later : Datetime) (record : Record) :
    Kept fl random snap changed activeLocalRank now later record ↔
      snap.ranked.givesRankedScore = true ∨
        Spared fl random snap changed activeLocalRank now record := by
  cases hranked : snap.ranked.givesRankedScore with
  | true =>
    refine iff_of_true (fun result hrun => ⟨fun h => absurd (hranked.symm.trans h) (by decide), ?_⟩)
      (.inl rfl)
    intro hresult
    refine ⟨hranked, ?_⟩
    have hopen :
        settle (record.refreshed snap changed) activeLocalRank later none = some result := by
      rw [← hrun, syncLocked]
      simp [calculateNextSyncTime_ranked hranked]
    rw [settle_none, hresult] at hopen
    cases activeLocalRank with
    | false => rfl
    | true =>
      rw [if_pos rfl, Option.map_eq_some_iff] at hopen
      obtain ⟨_, _, h⟩ := hopen
      cases h
  | false =>
    constructor
    · intro hkept
      right
      intro delta us hdelta hus hshort
      by_contra hnot
      have hdrawn : jitter fl random delta = _ := jitter_short hshort
      have hpos : ¬ 0 < effective activeLocalRank
          (us + 60 * 1000000 * random.randint jitterMin jitterMax) := by
        rw [effective_pos_iff]
        rintro (h | ⟨hactive, h⟩)
        · exact hnot (.inl (by omega))
        · exact hnot (.inr ⟨hactive, by omega⟩)
      obtain ⟨result, hresult, hpast⟩ :=
        @settle_of_not_pos activeLocalRank later (record.refreshed snap changed) _ hpos
      have hrun := syncLocked_eq_some hranked |>.mpr
        ⟨delta, _, us, hdelta, hdrawn, hus, hresult⟩
      obtain ⟨kept, hsome, hlater⟩ := (hkept result hrun).1 hranked
      have hle := hpast kept hsome
      omega
    · intro hspared result hrun
      have hspared := hspared.resolve_left (by simp)
      obtain ⟨delta, drawn, us, hdelta, hdrawn, hus, hsettle⟩ :=
        (syncLocked_eq_some hranked).mp hrun
      have hpos : 0 < effective activeLocalRank (us + drawn) := by
        rw [effective_pos_iff]
        cases lt_or_ge 86400 delta with
        | inl hlong => exact .inl (jitter_long hlong hdrawn hus)
        | inr hshort =>
          rw [jitter_short hshort, Option.some.injEq] at hdrawn
          obtain h | ⟨hactive, h⟩ := hspared delta us hdelta hus hshort
          · exact .inl (by omega)
          · exact .inr ⟨hactive, by omega⟩
      obtain ⟨kept, hsome, hlater⟩ := settle_of_pos hpos hsettle
      refine ⟨fun _ => ⟨kept, hsome, hlater⟩, fun hnone => ?_⟩
      rw [hnone] at hsome
      cases hsome

/-! ## A draw that ends the tracking -/

/-- Arithmetic without rounding, with the powers of whole exponents. -/
def exact : Floats where
  round := some
  log _ := none
  pow b e := if e.den = 1 ∧ 0 ≤ e.num then some (b ^ e.num.toNat) else none
  microseconds x := some (Scores.round (1000000 * x))
  round_int n _ h hround := by
    cases hround
    exact h
  round_le h hround := by
    cases hround
    linarith
  one_le_pow _ hpow := by
    split at hpow
    · cases hpow
      exact one_le_pow₀ (by norm_num)
    · cases hpow
  microseconds_int {x} {n} k h hn := by
    cases hn
    have hfloor : k * 1000000 ≤ ⌊1000000 * x⌋ := by
      rw [Int.le_floor]
      push_cast
      linarith
    cases round_cases (1000000 * x) with
    | inl hround => omega
    | inr hround => omega
  le_microseconds {x} {n} hn := by
    cases hn
    have hfloor : 1000000 * x < ⌊1000000 * x⌋ + 1 := Int.lt_floor_add_one _
    cases round_cases (1000000 * x) with
    | inl hround => rw [hround]; linarith
    | inr hround => rw [hround]; push_cast; linarith

/-- A source of random numbers that draws minus twenty where it can. -/
def minusTwenty : Random where
  randint low high := max low (min high (-20))
  bounds h := ⟨le_max_left _ _, max_le h (min_le_left _ _)⟩

/-- Noon of a day. -/
def noon : Datetime := ⟨63900000000000000, by decide⟩

/-- A set in the graveyard updated just now. -/
def fresh : Snapshot := ⟨.graveyard, none, noon, 0, []⟩

def tracked : Record := ⟨[], .graveyard, 0, noon⟩

/-- The record of a set in the graveyard is deleted. -/
theorem not_kept_fresh :
    syncLocked exact minusTwenty true fresh false false noon noon tracked = some none ∧
      ¬ Kept exact minusTwenty fresh false false noon noon tracked := by
  have hrun : syncLocked exact minusTwenty true fresh false false noon noon tracked =
      some none := by
    have hdelta : nextDelta exact fresh (tracked.refreshed fresh false).consecutiveNoChange noon =
        some 1200 := by decide +kernel
    have hdrawn : jitter exact minusTwenty 1200 = some (-1200000000) := by decide +kernel
    have hus : exact.microseconds 1200 = some 1200000000 := by decide +kernel
    exact (syncLocked_eq_some rfl).mpr ⟨1200, -1200000000, 1200000000, hdelta, hdrawn, hus, rfl⟩
  refine ⟨hrun, fun hkept => ?_⟩
  obtain ⟨kept, hsome, _⟩ := (hkept none hrun).1 rfl
  cases hsome

end Soms.Schedule
