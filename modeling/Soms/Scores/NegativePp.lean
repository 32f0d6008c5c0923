import Mathlib.Data.Finset.Union
import Soms.Library.Catalog
import Soms.Library.Run
import Soms.Scores.PpBest

/-!
# Negative PP

`negative_pp_service.py`: the rules that turn the PP of a map negative, the three ways in which the
maps of a rule are looked up, and the totals that are calculated again when the rules or the mapper
credits change.
-/

namespace Soms.Scores.NegativePp

inductive Kind where
  | beatmap | beatmapset | mapper
  deriving DecidableEq, Repr

/-- `NegativePPRule` -/
structure Rule where
  id : Nat
  kind : Kind
  targetId : Nat
  deriving DecidableEq, Repr

/-- `BeatmapMapperCredit` -/
structure Credit where
  beatmapId : BeatmapId
  mapperId : UserId
  deriving DecidableEq, Repr

/-- The tables that the lookups read. -/
structure Tables where
  /-- The sets of the beatmaps. -/
  beatmaps : Catalog SetId
  rules : List Rule
  credits : List Credit
  /-- The foreign key of a credit. -/
  credited : ∀ credit ∈ credits, credit.beatmapId ∈ beatmaps.ids

namespace Tables

/-- `target_maps` -/
def targetMaps (t : Tables) (kind : Kind) (targetId : Nat) : List BeatmapId :=
  t.beatmaps.ids.filter fun id =>
    match kind with
    | .beatmap => id = targetId
    | .beatmapset => t.beatmaps.row id = some targetId
    | .mapper => t.credits.any fun credit => credit.beatmapId = id && credit.mapperId = targetId

/-- The credits joined with the rules for their mappers. -/
def mapperRule (t : Tables) : List BeatmapId :=
  t.credits.flatMap fun credit =>
    (t.rules.filter fun rule => rule.kind = .mapper && rule.targetId = credit.mapperId).map
      fun _ => credit.beatmapId

/-- `penalized_maps` -/
def penalizedMaps (t : Tables) : List BeatmapId :=
  t.beatmaps.ids.filter fun id =>
    (t.rules.any fun rule => rule.kind = .beatmap && rule.targetId = id) ||
    (t.rules.any fun rule => rule.kind = .beatmapset && t.beatmaps.row id = some rule.targetId) ||
    id ∈ t.mapperRule

/-- The targets of the rules of a kind. -/
def targets (t : Tables) (kind : Kind) : List Nat :=
  (t.rules.filter fun rule => rule.kind = kind).map Rule.targetId

/-- `negative_map_ids` -/
def negativeMapIds (t : Tables) (beatmapIds : List BeatmapId) : Finset BeatmapId :=
  if beatmapIds = [] then ∅
  else if t.rules = [] then ∅
  else
    let maps := t.beatmaps.ids.filter fun id => id ∈ beatmapIds
    let result := (maps.filter fun id => id ∈ t.targets .beatmap ||
      (t.beatmaps.row id).any fun set => set ∈ t.targets .beatmapset).toFinset
    if t.targets .mapper = [] then result
    else result ∪ ((t.credits.filter fun credit => credit.beatmapId ∈ beatmapIds &&
      credit.mapperId ∈ t.targets .mapper).map Credit.beatmapId).toFinset

variable {t : Tables} {id : BeatmapId}

/-- A rule is about a map. -/
def Applies (t : Tables) (rule : Rule) (id : BeatmapId) : Prop :=
  match rule.kind with
  | .beatmap => id = rule.targetId
  | .beatmapset => t.beatmaps.row id = some rule.targetId
  | .mapper => ⟨id, rule.targetId⟩ ∈ t.credits

theorem mem_targetMaps {rule : Rule} :
    id ∈ t.targetMaps rule.kind rule.targetId ↔ id ∈ t.beatmaps.ids ∧ t.Applies rule id := by
  rw [targetMaps, List.mem_filter, Applies]
  cases rule.kind with
  | beatmap => simp
  | beatmapset => simp
  | mapper =>
    refine and_congr_right fun _ => ?_
    rw [List.any_eq_true]
    constructor
    · rintro ⟨⟨beatmapId, mapperId⟩, hcredit, heq⟩
      simp only [Bool.and_eq_true, decide_eq_true_eq] at heq
      obtain ⟨rfl, rfl⟩ := heq
      exact hcredit
    · intro hcredit
      exact ⟨_, hcredit, by simp⟩

theorem mem_mapperRule : id ∈ t.mapperRule ↔
    ∃ rule ∈ t.rules, rule.kind = .mapper ∧ ⟨id, rule.targetId⟩ ∈ t.credits := by
  simp only [mapperRule, List.mem_flatMap, List.mem_map, List.mem_filter, Bool.and_eq_true,
    decide_eq_true_eq]
  constructor
  · rintro ⟨⟨beatmapId, mapperId⟩, hcredit, rule, ⟨hrule, hkind, htarget⟩, rfl⟩
    exact ⟨rule, hrule, hkind, htarget ▸ hcredit⟩
  · rintro ⟨rule, hrule, hkind, hcredit⟩
    exact ⟨_, hcredit, rule, ⟨hrule, hkind, rfl⟩, rfl⟩

/-- A map is penalized by some rule about it. -/
theorem mem_penalizedMaps : id ∈ t.penalizedMaps ↔
    id ∈ t.beatmaps.ids ∧ ∃ rule ∈ t.rules, t.Applies rule id := by
  rw [penalizedMaps, List.mem_filter]
  refine and_congr_right fun _ => ?_
  simp only [Bool.or_eq_true, List.any_eq_true, Bool.and_eq_true, decide_eq_true_eq,
    mem_mapperRule]
  constructor
  · rintro ((⟨rule, hrule, hkind, htarget⟩ | ⟨rule, hrule, hkind, hset⟩) |
      ⟨rule, hrule, hkind, hcredit⟩)
    · exact ⟨rule, hrule, by rw [Applies, hkind]; exact htarget.symm⟩
    · exact ⟨rule, hrule, by rw [Applies, hkind]; exact hset⟩
    · exact ⟨rule, hrule, by rw [Applies, hkind]; exact hcredit⟩
  · rintro ⟨rule, hrule, happlies⟩
    rw [Applies] at happlies
    cases hkind : rule.kind with
    | beatmap =>
      rw [hkind] at happlies
      exact .inl (.inl ⟨rule, hrule, hkind, happlies.symm⟩)
    | beatmapset =>
      rw [hkind] at happlies
      exact .inl (.inr ⟨rule, hrule, hkind, happlies⟩)
    | mapper =>
      rw [hkind] at happlies
      exact .inr ⟨rule, hrule, hkind, happlies⟩

theorem mem_targets {kind : Kind} {n : Nat} :
    n ∈ t.targets kind ↔ ∃ rule ∈ t.rules, rule.kind = kind ∧ rule.targetId = n := by
  simp [targets, and_assoc]

/-- A rule about the map itself or about its set. -/
theorem applies_iff_targets : (∃ rule ∈ t.rules, t.Applies rule id) ↔
    (id ∈ t.targets .beatmap ∨ (t.beatmaps.row id).any (fun set => set ∈ t.targets .beatmapset)) ∨
      ∃ mapper ∈ t.targets .mapper, ⟨id, mapper⟩ ∈ t.credits := by
  simp only [mem_targets, Option.any_eq_true, decide_eq_true_eq]
  constructor
  · rintro ⟨rule, hrule, happlies⟩
    rw [Applies] at happlies
    cases hkind : rule.kind with
    | beatmap =>
      rw [hkind] at happlies
      exact .inl (.inl ⟨rule, hrule, hkind, happlies.symm⟩)
    | beatmapset =>
      rw [hkind] at happlies
      exact .inl (.inr ⟨_, happlies, rule, hrule, hkind, rfl⟩)
    | mapper =>
      rw [hkind] at happlies
      exact .inr ⟨_, ⟨rule, hrule, hkind, rfl⟩, happlies⟩
  · rintro ((⟨rule, hrule, hkind, htarget⟩ | ⟨set, hset, rule, hrule, hkind, rfl⟩) |
      ⟨_, ⟨rule, hrule, hkind, rfl⟩, hcredit⟩)
    · exact ⟨rule, hrule, by rw [Applies, hkind]; exact htarget.symm⟩
    · exact ⟨rule, hrule, by rw [Applies, hkind]; exact hset⟩
    · exact ⟨rule, hrule, by rw [Applies, hkind]; exact hcredit⟩

/-- The batch lookup finds the penalized maps among those it is given. -/
theorem mem_negativeMapIds {ids : List BeatmapId} :
    id ∈ t.negativeMapIds ids ↔ id ∈ ids ∧ id ∈ t.penalizedMaps := by
  have hmaps : id ∈ ((t.beatmaps.ids.filter fun id => id ∈ ids).filter fun id =>
      id ∈ t.targets .beatmap || (t.beatmaps.row id).any fun set => set ∈ t.targets .beatmapset) ↔
      (id ∈ t.beatmaps.ids ∧ id ∈ ids) ∧ (id ∈ t.targets .beatmap ∨
        (t.beatmaps.row id).any fun set => set ∈ t.targets .beatmapset) := by
    simp only [List.mem_filter, decide_eq_true_eq, Bool.or_eq_true]
  have hcredits : id ∈ ((t.credits.filter fun credit => credit.beatmapId ∈ ids &&
      credit.mapperId ∈ t.targets .mapper).map Credit.beatmapId) ↔
      id ∈ ids ∧ ∃ mapper ∈ t.targets .mapper, ⟨id, mapper⟩ ∈ t.credits := by
    simp only [List.mem_map, List.mem_filter, Bool.and_eq_true, decide_eq_true_eq]
    constructor
    · rintro ⟨⟨beatmapId, mapperId⟩, ⟨hcredit, hid, hmapper⟩, rfl⟩
      exact ⟨hid, mapperId, hmapper, hcredit⟩
    · rintro ⟨hid, mapper, hmapper, hcredit⟩
      exact ⟨⟨id, mapper⟩, ⟨hcredit, hid, hmapper⟩, rfl⟩
  have hforeign : (∃ mapper ∈ t.targets .mapper, ⟨id, mapper⟩ ∈ t.credits) →
      id ∈ t.beatmaps.ids := fun ⟨_, _, hcredit⟩ => t.credited _ hcredit
  rw [mem_penalizedMaps, applies_iff_targets]
  unfold negativeMapIds
  by_cases hids : ids = []
  · simp [hids]
  · rw [if_neg hids]
    by_cases hrules : t.rules = []
    · simp [hrules, targets]
    · rw [if_neg hrules]
      by_cases hmappers : t.targets .mapper = []
      · rw [if_pos hmappers, List.mem_toFinset, hmaps, hmappers]
        simp only [List.not_mem_nil, false_and, exists_false, or_false]
        exact ⟨fun h => ⟨h.1.2, h.1.1, h.2⟩, fun h => ⟨⟨h.2.1, h.1⟩, h.2.2⟩⟩
      · rw [if_neg hmappers, Finset.mem_union, List.mem_toFinset, List.mem_toFinset, hmaps,
          hcredits]
        constructor
        · rintro (⟨⟨hmap, hid⟩, htarget⟩ | ⟨hid, hmapper⟩)
          · exact ⟨hid, hmap, .inl htarget⟩
          · exact ⟨hid, hforeign hmapper, .inr hmapper⟩
        · rintro ⟨hid, hmap, htarget | hmapper⟩
          · exact .inl ⟨⟨hmap, hid⟩, htarget⟩
          · exact .inr ⟨hid, hmapper⟩

/-- The three lookups agree: the batch lookup gives the penalized maps among those it is given, and
they are the maps that some rule targets. -/
structure Agree (t : Tables) : Prop where
  batch : ∀ ids, t.negativeMapIds ids = ids.toFinset ∩ t.penalizedMaps.toFinset
  union : t.penalizedMaps.toFinset =
    t.rules.toFinset.biUnion fun rule => (t.targetMaps rule.kind rule.targetId).toFinset

theorem agree (t : Tables) : t.Agree where
  batch ids := by
    ext id
    rw [mem_negativeMapIds, Finset.mem_inter, List.mem_toFinset, List.mem_toFinset]
  union := by
    ext id
    simp only [Finset.mem_biUnion, List.mem_toFinset, mem_targetMaps, mem_penalizedMaps]
    constructor
    · rintro ⟨hid, rule, hrule, happlies⟩
      exact ⟨rule, hrule, hid, happlies⟩
    · rintro ⟨rule, hrule, hid, happlies⟩
      exact ⟨hid, rule, hrule, happlies⟩

end Tables

/-! ## The totals -/

structure State where
  tables : Tables
  bestScores : List BestScore
  /-- `pp` and `hit_accuracy` of `UserStatistics` -/
  statistics : UserMode → Option (ℚ × ℚ)

inductive Event where
  | addRule (rule : Rule)
  | removeRule (id : Nat)
  /-- The credits of some maps are replaced. -/
  | credit (changed : List BeatmapId) (credits : List Credit)

def modeValue : GameMode → String
  | .osu => "osu"
  | .taiko => "taiko"
  | .fruits => "fruits"
  | .mania => "mania"
  | .osurx => "osurx"
  | .osuap => "osuap"
  | .taikorx => "taikorx"
  | .fruitsrx => "fruitsrx"
  | .sentakki => "Sentakki"
  | .tau => "tau"
  | .rush => "rush"
  | .hishigata => "hishigata"
  | .soyokaze => "soyokaze"

/-- The order in which the statistics are locked. -/
def lockedBefore (a b : UserMode) : Bool :=
  a.1 < b.1 || a.1 == b.1 && modeValue a.2 ≤ modeValue b.2

/-- Replace the credits of some maps, by rows that meet the foreign key. -/
def Tables.setCredits (t : Tables) (changed : List BeatmapId) (credits : List Credit) : Tables where
  beatmaps := t.beatmaps
  rules := t.rules
  credits := (t.credits.filter fun credit => credit.beatmapId ∉ changed) ++
    credits.filter fun credit => credit.beatmapId ∈ changed ∧ credit.beatmapId ∈ t.beatmaps.ids
  credited credit hcredit := by
    rcases List.mem_append.mp hcredit with hold | hnew
    · exact t.credited credit (List.mem_of_mem_filter hold)
    · exact (of_decide_eq_true (List.mem_filter.mp hnew).2).2

namespace State

/-- `calculate_user_pp`, with its `negative_map_ids`. -/
def userPp (s : State) (um : UserMode) : ℚ × ℚ :=
  let negativeMaps := s.tables.negativeMapIds ((getUserBestPp s.bestScores um).map (·.beatmapId))
  calculateUserPp (fun id => id ∈ negativeMaps) s.bestScores um

/-- The users and modes with a best score on one of the maps. -/
def userModes (s : State) (beatmapIds : List BeatmapId) : List UserMode :=
  (((s.bestScores.filter fun row => row.beatmapId ∈ beatmapIds).map
    fun row => row.key.userMode).dedup).mergeSort lockedBefore

def recalculateOne (s : State) (um : UserMode) : State :=
  match s.statistics um with
  | some _ => { s with statistics := Function.update s.statistics um (some (s.userPp um)) }
  | none => s

/-- `recalculate` -/
def recalculate (beatmapIds : List BeatmapId) (s : State) : State :=
  (s.userModes beatmapIds).foldl recalculateOne s

/-- `reconcile_attribution` -/
def reconcileAttribution (beatmapIds : List BeatmapId) (s : State) : State :=
  if s.tables.rules.any fun rule => rule.kind = .mapper then s.recalculate beatmapIds else s

/-- The rules are changed as `negative_pp_admin.py` does it, the credits as `refresh_owners`. -/
def after (s : State) : Event → State
  | .addRule rule =>
    let maps := s.tables.targetMaps rule.kind rule.targetId
    { s with tables := { s.tables with rules := s.tables.rules ++ [rule] } }.recalculate maps
  | .removeRule id =>
    match s.tables.rules.find? fun rule => rule.id = id with
    | some rule =>
      let maps := s.tables.targetMaps rule.kind rule.targetId
      { s with tables := { s.tables with rules := s.tables.rules.erase rule } }.recalculate maps
    | none => s
  | .credit changed credits =>
    { s with tables := s.tables.setCredits changed credits }.reconcileAttribution changed

/-- Totals that have been calculated under the rules there are. -/
def settled (tables : Tables) (bestScores : List BestScore) (known : UserMode → Bool) : State :=
  let s : State := { tables, bestScores, statistics := fun _ => none }
  { s with statistics := fun um => if known um then some (s.userPp um) else none }

/-- Every total is what `calculate_user_pp` returns under the current rules. -/
def Settled (s : State) : Prop := ∀ um pp, s.statistics um = some pp → pp = s.userPp um

variable {s : State} {um : UserMode} {ids : List BeatmapId}

/-- The total reads only whether the maps of the user's rows are negative. -/
theorem calculateUserPp_congr {negative negative' : BeatmapId → Bool} {rows : List BestScore}
    (h : ∀ row ∈ getUserBestPp rows um, negative row.beatmapId = negative' row.beatmapId) :
    calculateUserPp negative rows um = calculateUserPp negative' rows um := by
  rw [calculateUserPp, calculateUserPp]
  congr 1
  rw [ppSum, ppSum]
  refine congrArg List.sum (List.map_congr_left fun x hx => ?_)
  rw [h x.1 (List.fst_mem_of_mem_zipIdx hx)]

/-- The total is calculated with the penalized maps. -/
theorem userPp_eq (s : State) (um : UserMode) :
    s.userPp um = calculateUserPp (fun id => id ∈ s.tables.penalizedMaps) s.bestScores um := by
  apply calculateUserPp_congr
  intro row hrow
  rw [decide_eq_decide, Tables.mem_negativeMapIds]
  exact and_iff_right (List.mem_map_of_mem hrow)

theorem mem_userModes :
    um ∈ s.userModes ids ↔ ∃ row ∈ s.bestScores, row.beatmapId ∈ ids ∧ row.key.userMode = um := by
  rw [userModes, List.mem_mergeSort, List.mem_dedup]
  simp [and_assoc]

/-- A user without a best score on the maps has the same total before and after. -/
theorem userPp_of_not_mem {t : State} (hrows : t.bestScores = s.bestScores)
    (hum : um ∉ s.userModes ids)
    (hmaps : ∀ id, id ∉ ids → (id ∈ t.tables.penalizedMaps ↔ id ∈ s.tables.penalizedMaps)) :
    t.userPp um = s.userPp um := by
  rw [userPp_eq, userPp_eq, hrows]
  apply calculateUserPp_congr
  intro row hrow
  rw [decide_eq_decide]
  apply hmaps
  intro hid
  obtain ⟨hmem, hkey⟩ := List.mem_filter.mp (mem_getUserBestPp hrow)
  exact hum (mem_userModes.mpr ⟨row, hmem, hid, of_decide_eq_true hkey⟩)

/-! ## The loop over the statistics -/

@[simp] theorem tables_recalculateOne (s : State) (um : UserMode) :
    (s.recalculateOne um).tables = s.tables := by
  unfold recalculateOne
  split <;> rfl

@[simp] theorem bestScores_recalculateOne (s : State) (um : UserMode) :
    (s.recalculateOne um).bestScores = s.bestScores := by
  unfold recalculateOne
  split <;> rfl

theorem userPp_recalculateOne (s : State) (um um' : UserMode) :
    (s.recalculateOne um).userPp um' = s.userPp um' := by
  simp only [userPp, tables_recalculateOne, bestScores_recalculateOne]

theorem statistics_recalculateOne (s : State) (um um' : UserMode) :
    (s.recalculateOne um).statistics um' =
      if um' = um then (s.statistics um').map fun _ => s.userPp um' else s.statistics um' := by
  unfold recalculateOne
  by_cases hsame : um' = um
  · subst hsame
    rw [if_pos rfl]
    cases hstat : s.statistics um' with
    | none => exact hstat
    | some pp => exact Function.update_self _ _ _
  · rw [if_neg hsame]
    split
    · exact Function.update_of_ne hsame _ _
    · rfl

theorem statistics_foldl (ums : List UserMode) (s : State) (um : UserMode) :
    (ums.foldl recalculateOne s).statistics um =
      if um ∈ ums then (s.statistics um).map fun _ => s.userPp um else s.statistics um := by
  induction ums generalizing s with
  | nil => simp
  | cons um' ums ih =>
    rw [List.foldl_cons, ih, userPp_recalculateOne, statistics_recalculateOne]
    by_cases hsame : um = um'
    · subst hsame
      by_cases hmem : um ∈ ums <;> simp [hmem, Function.comp_def]
    · by_cases hmem : um ∈ ums <;> simp [hmem, hsame]

theorem tables_recalculate (s : State) : (s.recalculate ids).tables = s.tables :=
  List.foldlRecOn (motive := fun t => t.tables = s.tables) _ recalculateOne rfl
    fun t ht um _ => (tables_recalculateOne t um).trans ht

theorem bestScores_recalculate (s : State) : (s.recalculate ids).bestScores = s.bestScores :=
  List.foldlRecOn (motive := fun t => t.bestScores = s.bestScores) _ recalculateOne rfl
    fun t ht um _ => (bestScores_recalculateOne t um).trans ht

/-- If only the given maps have changed sides, calculating their users again settles all totals. -/
theorem Settled.recalculate {t : State} (h : s.Settled) (hrows : t.bestScores = s.bestScores)
    (hstatistics : t.statistics = s.statistics)
    (hmaps : ∀ id, id ∉ ids → (id ∈ t.tables.penalizedMaps ↔ id ∈ s.tables.penalizedMaps)) :
    (t.recalculate ids).Settled := by
  intro um pp hpp
  have hsame : (t.recalculate ids).userPp um = t.userPp um := by
    simp only [userPp, tables_recalculate, bestScores_recalculate]
  rw [hsame]
  rw [State.recalculate, statistics_foldl, hstatistics] at hpp
  split at hpp
  · obtain ⟨_, _, rfl⟩ := Option.map_eq_some_iff.mp hpp
    rfl
  · next hum =>
    rw [userPp_of_not_mem hrows (fun hmem => hum ?_) hmaps]
    · exact h um pp hpp
    · rw [mem_userModes] at hmem ⊢
      rwa [hrows]

/-! ## The events -/

/-- A new rule changes the sides of its target maps alone. -/
theorem penalizedMaps_addRule {t : Tables} {rule : Rule} {id : BeatmapId}
    (hid : id ∉ t.targetMaps rule.kind rule.targetId) :
    id ∈ ({ t with rules := t.rules ++ [rule] } : Tables).penalizedMaps ↔
      id ∈ t.penalizedMaps := by
  rw [Tables.mem_targetMaps] at hid
  rw [Tables.mem_penalizedMaps, Tables.mem_penalizedMaps]
  refine and_congr_right fun hmap => ?_
  show (∃ rule' ∈ t.rules ++ [rule], t.Applies rule' id) ↔ _
  simp only [List.mem_append, List.mem_singleton]
  constructor
  · rintro ⟨rule', hrule | rfl, happlies⟩
    · exact ⟨rule', hrule, happlies⟩
    · exact absurd ⟨hmap, happlies⟩ hid
  · rintro ⟨rule', hrule, happlies⟩
    exact ⟨rule', .inl hrule, happlies⟩

/-- So does a rule that is removed: another one like it still has the same targets. -/
theorem penalizedMaps_removeRule {t : Tables} {rule : Rule} {id : BeatmapId}
    (hid : id ∉ t.targetMaps rule.kind rule.targetId) :
    id ∈ ({ t with rules := t.rules.erase rule } : Tables).penalizedMaps ↔
      id ∈ t.penalizedMaps := by
  rw [Tables.mem_targetMaps] at hid
  rw [Tables.mem_penalizedMaps, Tables.mem_penalizedMaps]
  refine and_congr_right fun hmap => ?_
  show (∃ rule' ∈ t.rules.erase rule, t.Applies rule' id) ↔ _
  constructor
  · rintro ⟨rule', hrule, happlies⟩
    exact ⟨rule', List.mem_of_mem_erase hrule, happlies⟩
  · rintro ⟨rule', hrule, happlies⟩
    refine ⟨rule', (List.mem_erase_of_ne ?_).mpr hrule, happlies⟩
    rintro rfl
    exact hid ⟨hmap, happlies⟩

theorem mem_setCredits {t : Tables} {changed : List BeatmapId} {credits : List Credit}
    {credit : Credit} (hcredit : credit.beatmapId ∉ changed) :
    credit ∈ (t.setCredits changed credits).credits ↔ credit ∈ t.credits := by
  simp [Tables.setCredits, hcredit]

/-- New credits change the sides of their maps, and only under a rule for a mapper. -/
theorem penalizedMaps_setCredits {t : Tables} {changed : List BeatmapId} {credits : List Credit}
    {id : BeatmapId} (h : id ∉ changed ∨ ∀ rule ∈ t.rules, rule.kind ≠ .mapper) :
    id ∈ (t.setCredits changed credits).penalizedMaps ↔ id ∈ t.penalizedMaps := by
  rw [Tables.mem_penalizedMaps, Tables.mem_penalizedMaps]
  refine and_congr_right fun _ => ?_
  show (∃ rule ∈ t.rules, (t.setCredits changed credits).Applies rule id) ↔ _
  refine exists_congr fun rule => and_congr_right fun hrule => ?_
  rw [Tables.Applies, Tables.Applies]
  cases hkind : rule.kind with
  | beatmap => exact Iff.rfl
  | beatmapset => exact Iff.rfl
  | mapper =>
    cases h with
    | inl hid => exact mem_setCredits hid
    | inr hnone => exact absurd hkind (hnone rule hrule)

/-- One event leaves every total settled. -/
theorem Settled.after (h : s.Settled) (e : Event) : (s.after e).Settled := by
  cases e with
  | addRule rule => exact h.recalculate rfl rfl fun id hid => penalizedMaps_addRule hid
  | removeRule id =>
    cases hfind : s.tables.rules.find? fun rule => rule.id = id with
    | some rule =>
      rw [State.after, hfind]
      exact h.recalculate rfl rfl fun id hid => penalizedMaps_removeRule hid
    | none =>
      rw [State.after, hfind]
      exact h
  | credit changed credits =>
    show (State.reconcileAttribution changed _).Settled
    unfold State.reconcileAttribution
    split
    · exact h.recalculate rfl rfl fun id hid => penalizedMaps_setCredits (.inl hid)
    · next hnone =>
      have hnone : ∀ rule ∈ s.tables.rules, rule.kind ≠ .mapper := by
        intro rule hrule hkind
        exact hnone (List.any_eq_true.mpr ⟨rule, hrule, by simpa using hkind⟩)
      intro um pp hpp
      rw [h um pp hpp, userPp_eq, userPp_eq]
      apply calculateUserPp_congr
      intro row _
      rw [decide_eq_decide]
      exact (penalizedMaps_setCredits (.inr hnone)).symm

theorem settled_settled (tables : Tables) (bestScores : List BestScore)
    (known : UserMode → Bool) : (settled tables bestScores known).Settled := by
  intro um pp hpp
  unfold settled at hpp
  dsimp only at hpp
  split at hpp
  · exact (Option.some.inj hpp).symm
  · cases hpp

/-- After any events on any tables the lookups agree and the totals are those of the current
rules. -/
theorem run_settled (tables : Tables) (bestScores : List BestScore) (known : UserMode → Bool)
    (events : List Event) :
    (events.foldl State.after (settled tables bestScores known)).tables.Agree ∧
      (events.foldl State.after (settled tables bestScores known)).Settled := by
  refine ⟨Tables.agree _, ?_⟩
  exact List.foldlRecOn (motive := Settled) events State.after
    (settled_settled tables bestScores known) fun s hs e _ => hs.after e

end State

end Soms.Scores.NegativePp
