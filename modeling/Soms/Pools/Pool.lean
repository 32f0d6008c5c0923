import Soms.Pools.Spec

/-!
# A pool and its preview

`SomsaiPoolSpec` with its checks, and `preview_pool`: what the local catalogue says of the maps of
a pool, and what the format of a match asks of its slots.
-/

namespace Soms.Pools

/-- The fields of `SomsaiPoolSpec`. -/
structure PoolFields where
  name : Text
  rulesetId : Int
  variantId : Int
  active : Bool
  ratingMin : Int
  ratingMax : Int
  bestOf : Int
  bansPerTeam : Int
  slots : List SlotSpec
  sourceRankMin : Option Int
  sourceRankMax : Option Int
  deriving DecidableEq, Repr

namespace PoolFields

/-- `Field(ge=low, le=high)` -/
def within (low high n : Int) : Bool := low ≤ n && n ≤ high

/-- The bounds of the single fields. -/
def checkFields (pool : PoolFields) : Bool :=
  2 ≤ pool.name.length && pool.name.length ≤ 160 && within 0 3 pool.rulesetId &&
    within 0 10000 pool.ratingMin && within 0 10000 pool.ratingMax &&
    pool.bestOf ∈ [7, 9, 11] && within 0 3 pool.bansPerTeam && pool.slots.length ≤ 64 &&
    pool.sourceRankMin.all (1 ≤ ·) && pool.sourceRankMax.all (1 ≤ ·)

/-- `validate_pool` -/
def validatePool (pool : PoolFields) : Bool :=
  pool.variantId ∈ (if pool.rulesetId = 3 then [4, 7] else [0]) &&
    pool.ratingMin ≤ pool.ratingMax &&
    (pool.sourceRankMin.all fun low => pool.sourceRankMax.all fun high => low ≤ high) &&
    (pool.slots.map SlotSpec.id).Nodup && (pool.slots.map SlotSpec.beatmapId).Nodup

end PoolFields

/-- `SomsaiPoolSpec`: the fields of a pool that have passed the checks. -/
structure PoolSpec extends PoolFields where
  valid : toPoolFields.checkFields && toPoolFields.validatePool

/-- `SomsaiPoolSpec.model_validate`, none where it raises. -/
def PoolFields.validate (strings : Strings) (pool : PoolFields) : Option PoolSpec :=
  let pool := { pool with name := strings.strip pool.name }
  if h : pool.checkFields && pool.validatePool then some { toPoolFields := pool, valid := h }
  else none

theorem PoolSpec.nodup_ids (spec : PoolSpec) : (spec.slots.map SlotSpec.id).Nodup := by
  have hvalid := spec.valid
  simp only [PoolFields.validatePool, Bool.and_eq_true, decide_eq_true_eq] at hvalid
  exact hvalid.2.1.2

theorem PoolSpec.nodup_beatmaps (spec : PoolSpec) :
    (spec.slots.map SlotSpec.beatmapId).Nodup := by
  have hvalid := spec.valid
  simp only [PoolFields.validatePool, Bool.and_eq_true, decide_eq_true_eq] at hvalid
  exact hvalid.2.2

/-! ## The local catalogue -/

structure Beatmap where
  beatmapsetId : Int
  mode : Int
  cs : ℚ
  deletedAt : Option Int
  checksum : Option Text
  deriving DecidableEq

structure Beatmapset where
  downloadDisabled : Bool
  deriving DecidableEq

structure MapCatalog where
  beatmaps : Int → Option Beatmap
  beatmapsets : Int → Option Beatmapset

namespace MapCatalog

/-- A beatmap with its set, as the join of the two tables yields it. -/
def entry (catalog : MapCatalog) (beatmapId : Int) : Option (Beatmap × Beatmapset) := do
  let beatmap ← catalog.beatmaps beatmapId
  let beatmapset ← catalog.beatmapsets beatmap.beatmapsetId
  return (beatmap, beatmapset)

/-- Every row of one catalogue stands in the other. -/
structure Within (a b : MapCatalog) : Prop where
  beatmaps : ∀ id row, a.beatmaps id = some row → b.beatmaps id = some row
  beatmapsets : ∀ id row, a.beatmapsets id = some row → b.beatmapsets id = some row

variable {a b c : MapCatalog}

theorem Within.refl (a : MapCatalog) : a.Within a := ⟨fun _ _ h => h, fun _ _ h => h⟩

theorem Within.trans (hab : a.Within b) (hbc : b.Within c) : a.Within c where
  beatmaps id row h := hbc.beatmaps id row (hab.beatmaps id row h)
  beatmapsets id row h := hbc.beatmapsets id row (hab.beatmapsets id row h)

theorem Within.entry (h : a.Within b) {beatmapId : Int} {e : Beatmap × Beatmapset}
    (hentry : a.entry beatmapId = some e) : b.entry beatmapId = some e := by
  simp only [MapCatalog.entry, Option.bind_eq_bind, Option.bind_eq_some_iff, Option.pure_def]
    at hentry ⊢
  obtain ⟨beatmap, hbeatmap, beatmapset, hset, he⟩ := hentry
  exact ⟨beatmap, h.beatmaps _ _ hbeatmap, beatmapset, h.beatmapsets _ _ hset, he⟩

end MapCatalog

/-! ## The preview -/

/-- `bool(text)` of an optional text. -/
def isText (text : Option Text) : Bool := text.any fun text => !text.isEmpty

/-- An error that begins with the name of the slot. -/
@[irreducible] def note (id : Text) (error : String) : Text := id ++ error.toList

/-- What speaks against a slot. -/
def slotErrors (catalog : MapCatalog) (pool : PoolFields) (slot : SlotSpec) : List Text :=
  match catalog.entry slot.beatmapId with
  | none => [note slot.id s!": карта {slot.beatmapId} отсутствует в локальном каталоге"]
  | some (beatmap, beatmapset) =>
    (if beatmap.mode ≠ pool.rulesetId ∨ pool.rulesetId = 3 ∧ beatmap.cs ≠ pool.variantId then
      [note slot.id ": режим карты не соответствует пулу"] else []) ++
    (if beatmap.deletedAt.isSome ∨ isText beatmap.checksum = false then
      [note slot.id ": карта удалена или не имеет контрольной суммы"]
    else if beatmapset.downloadDisabled then
      [note slot.id ": скачивание карты недоступно"]
    else if isText slot.checksum ∧ slot.checksum ≠ beatmap.checksum then
      [note slot.id ": контрольная сумма источника отличается от локальной карты"]
    else [])

/-- A slot as it is stored, with the checksum of the local map if it has none. -/
def canonicalSlot (catalog : MapCatalog) (slot : SlotSpec) : SlotSpec :=
  match catalog.entry slot.beatmapId with
  | none => slot
  | some (beatmap, _) =>
    { slot with checksum := if isText slot.checksum then slot.checksum else beatmap.checksum }

/-- `_canonical_slots` -/
def canonicalSlots (catalog : MapCatalog) (pool : PoolFields) : List SlotSpec × List Text :=
  (pool.slots.map (canonicalSlot catalog), pool.slots.flatMap (slotErrors catalog pool))

/-- `_format_errors` -/
def formatErrors (pool : PoolFields) : List Text :=
  let tiebreaks := pool.slots.countP fun slot => slot.id = Category.tb.name
  let normal := pool.slots.countP fun slot => slot.id ≠ Category.tb.name
  let required := pool.bestOf - 1 + 2 * pool.bansPerTeam
  (if tiebreaks ≠ 1 then ["Для матча нужен ровно один TB".toList] else []) ++
    (if normal < required then
      [(s!"Для BO{pool.bestOf} и {pool.bansPerTeam} бана с каждой стороны нужно {required} " ++
        "обычных карт + TB").toList] else [])

/-- `preview_pool`: the canonical slots and the errors. -/
def previewPool (catalog : MapCatalog) (pool : PoolFields) : List SlotSpec × List Text :=
  let (slots, errors) := canonicalSlots catalog pool
  (slots, errors ++ formatErrors pool)

/-- The pool has no validation errors. -/
def Playable (catalog : MapCatalog) (pool : PoolFields) : Prop := (previewPool catalog pool).2 = []

section Preview

variable {catalog catalog' : MapCatalog} {pool : PoolFields} {slot : SlotSpec}

theorem playable_iff : Playable catalog pool ↔
    (∀ slot ∈ pool.slots, slotErrors catalog pool slot = []) ∧ formatErrors pool = [] := by
  unfold Playable
  show pool.slots.flatMap (slotErrors catalog pool) ++ formatErrors pool = [] ↔ _
  rw [List.append_eq_nil_iff, List.flatMap_eq_nil_iff]

/-- A slot is in order if its map is in the catalogue, is of the pool's mode and can be loaded, and
has the checksum the slot names. -/
theorem slotErrors_eq_nil : slotErrors catalog pool slot = [] ↔
    ∃ beatmap beatmapset, catalog.entry slot.beatmapId = some (beatmap, beatmapset) ∧
      ¬(beatmap.mode ≠ pool.rulesetId ∨ pool.rulesetId = 3 ∧ beatmap.cs ≠ pool.variantId) ∧
      ¬(beatmap.deletedAt.isSome ∨ isText beatmap.checksum = false) ∧
      beatmapset.downloadDisabled = false ∧
      (isText slot.checksum = true → slot.checksum = beatmap.checksum) := by
  unfold slotErrors
  cases hentry : catalog.entry slot.beatmapId with
  | none => simp
  | some entry =>
    obtain ⟨beatmap, beatmapset⟩ := entry
    simp only [List.append_eq_nil_iff, Option.some.injEq, Prod.mk.injEq]
    have hone : ∀ (p : Prop) [Decidable p] (error : Text) (rest : List Text),
        (if p then [error] else rest) = [] ↔ ¬p ∧ rest = [] := by
      intro p _ error rest
      by_cases hp : p <;> simp [hp]
    rw [hone, hone, hone, hone]
    constructor
    · rintro ⟨⟨hmode, -⟩, hdeleted, hdisabled, hchecksum, -⟩
      refine ⟨beatmap, beatmapset, ⟨rfl, rfl⟩, hmode, hdeleted, by simpa using hdisabled, ?_⟩
      intro htext
      by_contra hne
      exact hchecksum ⟨htext, hne⟩
    · rintro ⟨_, _, ⟨rfl, rfl⟩, hmode, hdeleted, hdisabled, hchecksum⟩
      exact ⟨⟨hmode, rfl⟩, hdeleted, by simp [hdisabled], fun h => h.2 (hchecksum h.1), rfl⟩

/-- More rows bring no errors. -/
theorem slotErrors_within (h : catalog.Within catalog')
    (herrors : slotErrors catalog pool slot = []) : slotErrors catalog' pool slot = [] := by
  obtain ⟨beatmap, beatmapset, hentry, hrest⟩ := slotErrors_eq_nil.mp herrors
  exact slotErrors_eq_nil.mpr ⟨beatmap, beatmapset, h.entry hentry, hrest⟩

theorem Playable.within (hplayable : Playable catalog pool) (h : catalog.Within catalog') :
    Playable catalog' pool := by
  obtain ⟨hslots, hformat⟩ := playable_iff.mp hplayable
  exact playable_iff.mpr ⟨fun slot hslot => slotErrors_within h (hslots slot hslot), hformat⟩

@[simp] theorem canonicalSlot_id : (canonicalSlot catalog slot).id = slot.id := by
  unfold canonicalSlot
  split <;> rfl

@[simp] theorem canonicalSlot_beatmapId :
    (canonicalSlot catalog slot).beatmapId = slot.beatmapId := by
  unfold canonicalSlot
  split <;> rfl

/-- The checksum of the local map speaks against no slot. -/
theorem slotErrors_canonicalSlot (herrors : slotErrors catalog pool slot = []) :
    slotErrors catalog pool (canonicalSlot catalog slot) = [] := by
  obtain ⟨beatmap, beatmapset, hentry, hmode, hdeleted, hdisabled, hchecksum⟩ :=
    slotErrors_eq_nil.mp herrors
  rw [slotErrors_eq_nil, canonicalSlot_beatmapId]
  refine ⟨beatmap, beatmapset, hentry, hmode, hdeleted, hdisabled, fun _ => ?_⟩
  rw [canonicalSlot, hentry]
  show (if isText slot.checksum then slot.checksum else beatmap.checksum) = beatmap.checksum
  split
  · next htext => exact hchecksum htext
  · rfl

/-- The format asks only for the names of the slots. -/
theorem formatErrors_congr {pool pool' : PoolFields} (hbestOf : pool.bestOf = pool'.bestOf)
    (hbans : pool.bansPerTeam = pool'.bansPerTeam)
    (hids : pool.slots.map SlotSpec.id = pool'.slots.map SlotSpec.id) :
    formatErrors pool = formatErrors pool' := by
  have hcount : ∀ p : Text → Bool, pool.slots.countP (fun slot => p slot.id) =
      pool'.slots.countP fun slot => p slot.id := by
    intro p
    have hmap := congrArg (List.countP p) hids
    rwa [List.countP_map, List.countP_map] at hmap
  unfold formatErrors
  rw [hbestOf, hbans, hcount fun id => id = Category.tb.name,
    hcount fun id => id ≠ Category.tb.name]

/-- What was playable before it was stored is playable as it is stored. -/
theorem Playable.canonical (h : Playable catalog pool) :
    Playable catalog { pool with slots := (previewPool catalog pool).1 } := by
  obtain ⟨hslots, hformat⟩ := playable_iff.mp h
  refine playable_iff.mpr ⟨fun slot hslot => ?_, ?_⟩
  · obtain ⟨source, hsource, rfl⟩ := List.mem_map.mp hslot
    exact slotErrors_canonicalSlot (hslots source hsource)
  · have hids : (pool.slots.map (canonicalSlot catalog)).map SlotSpec.id =
        pool.slots.map SlotSpec.id := by
      rw [List.map_map]
      exact List.map_congr_left fun slot _ => canonicalSlot_id
    rw [← hformat]
    exact formatErrors_congr rfl rfl hids

end Preview

end Soms.Pools
