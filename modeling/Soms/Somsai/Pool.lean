import Mathlib.Data.List.Sort
import Soms.Somsai.Data

/-!
# The pool of a match

`somsai_mixed_pool_service.py`: one beatmap for each slot of the rank's rule, no
beatmap twice.  `assign` is the augmenting search of the source; its fuel bounds
the rows it can visit, since a beatmap is visited once in a search.
-/

namespace Soms.Somsai

/-- `owners`: which slot holds a beatmap. -/
abbrev Owners := List (Nat × String)

namespace Owners

def get (owners : Owners) (beatmapId : Nat) : Option String :=
  (owners.find? fun entry => entry.1 = beatmapId).map Prod.snd

/-- `owners[beatmap_id] = slot`. -/
def set (owners : Owners) (beatmapId : Nat) (slot : String) : Owners :=
  if (owners.get beatmapId).isSome then
    owners.map fun entry => if entry.1 = beatmapId then (beatmapId, slot) else entry
  else owners ++ [(beatmapId, slot)]

end Owners

structure Search where
  owners : Owners
  visited : List Nat
  deriving DecidableEq, Repr

/-- The rows from which `assign(slot, visited)` has still to choose. -/
def assign (candidates : String → List SomsaiMap) :
    Nat → String → List SomsaiMap → Search → Bool × Search
  | 0, _, _, search => (false, search)
  | _, _, [], search => (false, search)
  | fuel + 1, slot, row :: rows, search =>
    if row.beatmapId ∈ search.visited then assign candidates fuel slot rows search
    else
      let search := { search with visited := row.beatmapId :: search.visited }
      match search.owners.get row.beatmapId with
      | none => (true, { search with owners := search.owners.set row.beatmapId slot })
      | some owner =>
        match assign candidates fuel owner (candidates owner) search with
        | (true, search) =>
          (true, { search with owners := search.owners.set row.beatmapId slot })
        | (false, search) => assign candidates fuel slot rows search

/-- Rows that `assign` may step over: each of the beatmaps is entered at most once. -/
def assignFuel (slots : List String) (candidates : String → List SomsaiMap) : Nat :=
  let rows := (slots.map fun slot => (candidates slot).length).sum
  (rows + 1) * (rows + 1)

/-- The loop that assigns each slot, fewest candidates first. -/
def assignAll (candidates : String → List SomsaiMap) (fuel : Nat) :
    List String → Owners → Option Owners
  | [], owners => some owners
  | slot :: slots, owners =>
    match assign candidates fuel slot (candidates slot) { owners := owners, visited := [] } with
    | (true, search) => assignAll candidates fuel slots search.owners
    | (false, _) => none

structure Pool where
  bestOf : Nat
  bansPerTeam : Nat
  poolRank : Rank
  slots : List Slot
  deriving DecidableEq, Repr

/-- `_slot_payload`. -/
def slotPayload (row : SomsaiMap) : Slot :=
  { id := row.slot, category := row.category, beatmapId := row.beatmapId, checksum := row.checksum,
    mods := row.mods }

/-- The rank whose rule the pool follows. -/
def poolTarget (rating : ℚ) (rank : Option Rank) : Rank :=
  if rating ≤ 50 then .archsom else rank.getD (rankFromRating rating)

/-- `options[slot]`. -/
def poolOptions (warehouse : List SomsaiMap) (target : Rank) (rulesetId : RulesetId)
    (variantId : Nat) (slot : String) : List SomsaiMap :=
  warehouse.filter fun row =>
    decide (row.slot = slot ∧ row.rulesetId = rulesetId ∧ row.variantId = variantId ∧
      target ∈ row.eligibleRanks)

/-- `selected[slot]`. -/
def selectRow (ctx : Ctx) (k : MatchId) (options : String → List SomsaiMap) (owners : Owners)
    (slot : String) : Option SomsaiMap :=
  (owners.find? fun entry => entry.2 = slot).bind fun entry =>
    ctx.choice k slot ((options slot).filter fun row => row.beatmapId = entry.1)

/-- `mixed_pool`. -/
def mixedPool (ctx : Ctx) (k : MatchId) (warehouse : List SomsaiMap) (rulesetId : RulesetId)
    (variantId : Nat) (rating : ℚ) (rank : Option Rank) : Except Failure Pool :=
  let target := poolTarget rating rank
  let rule := ruleFor target
  let options := poolOptions warehouse target rulesetId variantId
  let missing := rule.slots.filter fun slot => (options slot).isEmpty
  if missing ≠ [] then
    .error (reject
      ("No suitable warehouse beatmaps for " ++ target.name ++ ": " ++ ", ".intercalate missing))
  else
    let candidates := fun slot => ctx.shuffle k slot (options slot)
    let order := rule.slots.insertionSort fun a b => (candidates a).length ≤ (candidates b).length
    match assignAll candidates (assignFuel rule.slots candidates) order [] with
    | none =>
      .error (reject
        ("Not enough unique beatmaps to build " ++ target.name ++ " without duplicates"))
    | some owners =>
      match rule.slots.mapM (selectRow ctx k options owners) with
      | none => .error (.other "IndexError: Cannot choose from an empty sequence")
      | some rows =>
        .ok { bestOf := rule.bestOf, bansPerTeam := rule.bansPerTeam, poolRank := target,
              slots := rows.map slotPayload }

/-- What a match relies on in the pool it is created from. -/
structure Pool.WellFormed (pool : Pool) : Prop where
  bestOf_odd : pool.bestOf % 2 = 1
  nodup : (pool.slots.map (·.id)).Nodup
  tiebreaker : "TB" ∈ pool.slots.map (·.id)
  slots_eq : pool.slots.map (·.id) = (ruleFor pool.poolRank).slots
  bestOf_eq : pool.bestOf = (ruleFor pool.poolRank).bestOf
  bansPerTeam_eq : pool.bansPerTeam = (ruleFor pool.poolRank).bansPerTeam

theorem selectRow_slot {ctx : Ctx} {k : MatchId} {warehouse : List SomsaiMap} {target : Rank}
    {rulesetId : RulesetId} {variantId : Nat} {owners : Owners} {slot : String} {row : SomsaiMap}
    (h : selectRow ctx k (poolOptions warehouse target rulesetId variantId) owners slot = some row) :
    row.slot = slot := by
  simp only [selectRow, Option.bind_eq_some_iff] at h
  obtain ⟨entry, -, hrow⟩ := h
  have hmem := Ctx.choice_mem hrow
  simp only [poolOptions, List.mem_filter, decide_eq_true_eq] at hmem
  exact hmem.1.2.1

theorem mapM_map_eq {α β : Type} {f : α → Option β} (g : β → α) (hf : ∀ a b, f a = some b → g b = a)
    {l : List α} {r : List β} (h : l.mapM f = some r) : r.map g = l := by
  induction l generalizing r with
  | nil =>
    simp only [List.mapM_nil, Option.pure_def, Option.some.injEq] at h
    simp [← h]
  | cons a rest ih =>
    simp only [List.mapM_cons, Option.bind_eq_bind, Option.pure_def, Option.bind_eq_some_iff,
      Option.some.injEq] at h
    obtain ⟨b, hb, bs, hbs, rfl⟩ := h
    simp [hf a b hb, ih hbs]

/-- The slots of a pool are the slots of its rule, in the rule's order. -/
theorem mixedPool_slots {ctx : Ctx} {k : MatchId} {warehouse : List SomsaiMap}
    {rulesetId : RulesetId} {variantId : Nat} {rating : ℚ} {rank : Option Rank} {pool : Pool}
    (h : mixedPool ctx k warehouse rulesetId variantId rating rank = .ok pool) :
    pool.slots.map (·.id) = (ruleFor pool.poolRank).slots ∧
      pool.bestOf = (ruleFor pool.poolRank).bestOf ∧
      pool.bansPerTeam = (ruleFor pool.poolRank).bansPerTeam := by
  unfold mixedPool at h
  simp only at h
  split at h
  · simp at h
  · split at h
    · simp at h
    · split at h
      · simp at h
      · next rows hrows =>
        have hslots := mapM_map_eq SomsaiMap.slot (fun _ _ => selectRow_slot) hrows
        injection h with h
        subst h
        refine ⟨?_, rfl, rfl⟩
        simpa [List.map_map, Function.comp_def, slotPayload] using hslots

theorem mixedPool_wellFormed {ctx : Ctx} {k : MatchId} {warehouse : List SomsaiMap}
    {rulesetId : RulesetId} {variantId : Nat} {rating : ℚ} {rank : Option Rank} {pool : Pool}
    (h : mixedPool ctx k warehouse rulesetId variantId rating rank = .ok pool) :
    pool.WellFormed := by
  obtain ⟨hslots, hbest, hbans⟩ := mixedPool_slots h
  exact {
    bestOf_odd := by rw [hbest]; exact ruleFor_bestOf_odd _
    nodup := by rw [hslots]; exact ruleFor_slots_nodup _
    tiebreaker := by rw [hslots]; exact TB_mem_ruleFor_slots _
    slots_eq := hslots
    bestOf_eq := hbest
    bansPerTeam_eq := hbans }

end Soms.Somsai
