import Soms.Pools.Pool

/-!
# How a pool is saved

`save_pool` in its two parts: what it checks as soon as it has locked the row, and what it writes
before the caller commits.
-/

namespace Soms.Pools

/-- Where a pool comes from: `source_kind`, `source_id`, `source_round`, `source_url` and
`source_metadata`. -/
structure ImportSource where
  kind : Text
  id : Option Int
  round : Option Text
  url : Option Text
  metadata : List (String × Json)

/-- The source of a pool made by hand. -/
def ImportSource.manual : ImportSource :=
  { kind := "manual".toList, id := none, round := none, url := none, metadata := [] }

def ImportSource.toJson (source : ImportSource) : Json :=
  let text := fun (value : Option Text) => match value with
    | some text => Json.str text
    | none => .null
  .obj [("source_kind", .str source.kind),
    ("source_id", match source.id with
      | some id => .int id
      | none => .null),
    ("source_round", text source.round), ("source_url", text source.url),
    ("source_metadata", .obj source.metadata)]

/-- `SomsaiPool` -/
structure Pool where
  fields : PoolFields
  source : ImportSource
  revision : Nat

/-- Rows of maps that were read upstream, by their ids. -/
structure Metadata where
  beatmapsets : List (Int × Beatmapset)
  beatmaps : List (Int × Beatmap)

/-- The arguments of `save_pool`. -/
structure Edit where
  spec : PoolSpec
  poolId : Option Nat
  expectedRevision : Option Nat
  metadata : Metadata
  provenance : Option ImportSource
  append : Bool

/-- The checks on the row that `SELECT … FOR UPDATE` returns: a pool of the expected revision,
or no pool for an edit that makes a new one. -/
def lockedPool (edit : Edit) (row : Option Pool) : Except Failure (Option Pool) :=
  match edit.poolId with
  | some _ =>
    match row with
    | none => .error (.http 404 "Турнирный пул не найден")
    | some pool =>
      if edit.expectedRevision ≠ some pool.revision then
        .error (.http 409 "Пул уже изменён другим администратором. Откройте его заново")
      else .ok (some pool)
  | none =>
    if edit.expectedRevision.isSome || edit.append then
      .error (.http 422 "Для нового пула версия и пополнение не применяются")
    else .ok none

namespace SlotSpec

/-- `SomsaiSlotSpec.model_validate` of a stored slot. -/
def revalidate (strings : Strings) (slot : SlotSpec) : Option SlotSpec :=
  validate strings slot.id (.int slot.beatmapId)
    (match slot.checksum with
      | some checksum => .str checksum
      | none => .null) slot.sourceUrl

/-- `category`, none for a name that `CATEGORY_MODS` does not have. -/
def category (slot : SlotSpec) : Option Category := Category.ofName (slot.id.take 2)

/-- `int(slot.id[2:])` -/
def number (slot : SlotSpec) : Nat := Nat.ofDigitChars 10 (slot.id.drop 2) 0

end SlotSpec

/-- `_spec(pool)`, none where it raises. -/
def specOf (strings : Strings) (pool : Pool) : Option PoolSpec := do
  let slots ← pool.fields.slots.mapM (SlotSpec.revalidate strings)
  PoolFields.validate strings { pool.fields with slots }

/-- The highest number of a category, which the tiebreak has none of. -/
def highest (slots : List SlotSpec) (category : Category) : Nat :=
  ((slots.filter fun slot => slot.category = some category ∧ category ≠ .tb).map
    SlotSpec.number).foldl max 0

/-- The added slots, numbered on in their categories. -/
def renumber (counts : Category → Nat) : List SlotSpec → Except Failure (List SlotSpec)
  | [] => .ok []
  | slot :: slots =>
    match slot.category with
    | none => .error .raised
    | some category => do
      let counts := Function.update counts category (counts category + 1)
      let rest ← renumber counts slots
      return { slot with id := label category (counts category) } :: rest

/-- The spec of an edit that adds its slots to those of the pool. -/
def merged (strings : Strings) (pool : Pool) (spec : PoolSpec) : Except Failure PoolSpec :=
  match specOf strings pool with
  | none => .error .raised
  | some old => do
    let additions ← renumber (highest old.slots) spec.slots
    match PoolFields.validate strings
        { spec.toPoolFields with slots := old.slots ++ additions } with
    | some spec => return spec
    | none => throw (.http 422 "Пополнение содержит повтор карты, TB или больше 64 слотов")

/-- `{**entries, key: value}` -/
def setKey (entries : List (String × Json)) (key : String) (value : Json) :
    List (String × Json) :=
  if entries.any fun entry => entry.1 == key then
    entries.map fun entry => if entry.1 == key then (key, value) else entry
  else entries ++ [(key, value)]

/-- The source of the saved pool; an append keeps the last twenty imports. -/
def savedSource (before : Option Pool) (edit : Edit) : Except Failure ImportSource :=
  let source := (before.map Pool.source).getD .manual
  match edit.provenance with
  | none => .ok source
  | some provenance =>
    if edit.append then do
      let imports ← (Json.getD source.metadata "imports" (.arr [])).iterate
      let history := imports.drop (imports.length - 19) ++ [provenance.toJson]
      return { source with metadata := setKey source.metadata "imports" (.arr history) }
    else .ok provenance

/-- Insert the rows whose ids are not there yet. -/
def MapCatalog.add (catalog : MapCatalog) (metadata : Metadata) : MapCatalog where
  beatmaps id := (catalog.beatmaps id).or (metadata.beatmaps.lookup id)
  beatmapsets id := (catalog.beatmapsets id).or (metadata.beatmapsets.lookup id)

/-- The spec that is saved: the slots of the edit, or the stored ones and those it appends. -/
def savedSpec (strings : Strings) (edit : Edit) : Option Pool → Except Failure PoolSpec
  | some pool => if edit.append then merged strings pool edit.spec else .ok edit.spec
  | none => .ok edit.spec

/-- An active pool must have no errors. -/
def activated (spec : PoolSpec) (errors : List Text) : Except Failure Unit :=
  if spec.active && !errors.isEmpty then .error (.errors 422 "Пул нельзя включить" errors)
  else .ok ()

/-- What is written behind the checks, in the catalogue that the transaction sees. -/
def writtenPool (strings : Strings) (catalog : MapCatalog) (edit : Edit) (before : Option Pool) :
    Except Failure Pool := do
  let spec ← savedSpec strings edit before
  let preview := previewPool (catalog.add edit.metadata) spec.toPoolFields
  activated spec preview.2
  let source ← savedSource before edit
  return {
    fields := { spec.toPoolFields with slots := preview.1 }
    source
    revision := match before with
      | some pool => pool.revision + 1
      | none => 1 }

/-- `save_pool` on the row it locks: the pool as it was and as it is written. -/
def savePool (strings : Strings) (catalog : MapCatalog) (edit : Edit) (row : Option Pool) :
    Except Failure (Option Pool × Pool) := do
  let before ← lockedPool edit row
  let pool ← writtenPool strings catalog edit before
  return (before, pool)

section Lemmas

variable {strings : Strings} {catalog catalog' : MapCatalog} {edit : Edit} {row before : Option Pool}
  {pool : Pool}

theorem lockedPool_some (h : lockedPool edit row = .ok (some pool)) :
    edit.poolId.isSome ∧ row = some pool ∧ edit.expectedRevision = some pool.revision := by
  unfold lockedPool at h
  split at h
  · next hid =>
    split at h
    · cases h
    · split at h
      · cases h
      · next hrevision =>
        cases h
        exact ⟨by rw [hid]; rfl, rfl, not_not.mp hrevision⟩
  · split at h <;> cases h

theorem lockedPool_none (h : lockedPool edit row = .ok none) :
    edit.poolId = none ∧ edit.expectedRevision = none := by
  unfold lockedPool at h
  split at h
  · split at h
    · cases h
    · split at h <;> cases h
  · next hid =>
    split at h
    · cases h
    · next hnew =>
      rw [Bool.or_eq_true, not_or, Option.not_isSome_iff_eq_none] at hnew
      exact ⟨hid, hnew.1⟩

/-- An edit of an outdated pool is refused with the answer 409. -/
theorem lockedPool_stale {id : Nat} (hid : edit.poolId = some id)
    (hstale : edit.expectedRevision ≠ some pool.revision) :
    ∃ detail, lockedPool edit (some pool) = .error (.http 409 detail) := by
  unfold lockedPool
  rw [hid]
  exact ⟨_, if_pos hstale⟩

theorem activated_ok {spec : PoolSpec} {errors : List Text} {u : Unit}
    (h : activated spec errors = .ok u) (hactive : spec.active = true) : errors = [] := by
  unfold activated at h
  split at h
  · cases h
  · next hnone => simpa [hactive] using hnone

/-- What is written has one slot for each name and for each map, is playable if it is active, and
has the next revision. -/
theorem writtenPool_eq_ok (h : writtenPool strings catalog edit before = .ok pool) :
    (pool.fields.slots.map SlotSpec.id).Nodup ∧
      (pool.fields.slots.map SlotSpec.beatmapId).Nodup ∧
      (pool.fields.active = true → Playable (catalog.add edit.metadata) pool.fields) ∧
      pool.revision = (before.map Pool.revision).elim 1 (· + 1) := by
  obtain ⟨spec, -, h⟩ := Failure.bind_eq_ok h
  obtain ⟨_, hactivated, h⟩ := Failure.bind_eq_ok h
  obtain ⟨source, -, h⟩ := Failure.bind_eq_ok h
  cases h
  have hids : ((previewPool (catalog.add edit.metadata) spec.toPoolFields).1.map SlotSpec.id) =
      spec.slots.map SlotSpec.id := by
    show (spec.slots.map _).map _ = _
    rw [List.map_map]
    exact List.map_congr_left fun slot _ => canonicalSlot_id
  have hbeatmaps : ((previewPool (catalog.add edit.metadata) spec.toPoolFields).1.map
      SlotSpec.beatmapId) = spec.slots.map SlotSpec.beatmapId := by
    show (spec.slots.map _).map _ = _
    rw [List.map_map]
    exact List.map_congr_left fun slot _ => canonicalSlot_beatmapId
  refine ⟨hids ▸ spec.nodup_ids, hbeatmaps ▸ spec.nodup_beatmaps, fun hactive => ?_, ?_⟩
  · have hplayable : Playable (catalog.add edit.metadata) spec.toPoolFields :=
      activated_ok hactivated hactive
    exact hplayable.canonical
  · cases before <;> rfl

end Lemmas

end Soms.Pools
