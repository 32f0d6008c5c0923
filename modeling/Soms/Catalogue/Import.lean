import Mathlib.Data.List.Sort
import Soms.Library.Catalog
import Soms.Scores.Data

/-!
# The import of a search page

`import_search_page` of `service/ranked_catalogue_service.py`.  An entry of the page has the types
that the columns accept; what does not validate raises as the checks below do.  Columns that are
written with a new row and never again are carried as they are.
-/

namespace Soms.Catalogue

open Soms.Scores (BeatmapRankStatus)

abbrev SetId := Nat
abbrev BeatmapId := Nat
abbrev Columns := List (String × String)

/-! ## The tables -/

structure Beatmap where
  id : BeatmapId
  checksum : String
  beatmapStatus : BeatmapRankStatus
  deletedAt : Option Int
  difficultyRating : ℚ
  totalLength : Int
  hitLength : Int
  cs : ℚ
  others : Columns
  deriving DecidableEq

/-- A set with its difficulties, which no two of have one id. -/
structure Beatmapset where
  id : SetId
  lastUpdated : Int
  beatmapStatus : BeatmapRankStatus
  trackId : Option Nat
  downloadDisabled : Bool
  availabilityInfo : Option String
  others : Columns
  beatmaps : List Beatmap
  nodup : (beatmaps.map (·.id)).Nodup
  deriving DecidableEq

/-- The two tables.  A difficulty is in one set. -/
structure Database where
  sets : Catalog Beatmapset
  keyed : ∀ i set, sets.row i = some set → set.id = i
  distinct : ∀ i j a b, sets.row i = some a → sets.row j = some b →
    ∀ m ∈ a.beatmaps, ∀ m' ∈ b.beatmaps, m.id = m'.id → i = j

/-! ## The entries of a page -/

structure RawBeatmap where
  id : BeatmapId
  beatmapsetId : SetId
  convert : Bool := false
  checksum : Option String
  ranked : Int
  deletedAt : Option Int := none
  difficultyRating : ℚ
  totalLength : Int
  hitLength : Int
  cs : ℚ
  others : Columns := []
  deriving DecidableEq

structure BeatmapAvailability where
  moreInformation : Option String := none
  downloadDisabled : Option Bool := none
  deriving DecidableEq

structure RawSet where
  id : SetId
  trackId : Option Nat
  ranked : Option Int
  lastUpdated : Int
  availability : Option BeatmapAvailability := none
  beatmaps : List RawBeatmap
  others : Columns := []
  deriving DecidableEq

inductive ImportError where
  | value (message : String)
  /-- The database refuses a difficulty that another set has. -/
  | integrity
  deriving DecidableEq

/-- `BeatmapRankStatus(ranked)` -/
def rankStatus : Int → Except ImportError BeatmapRankStatus
  | -2 => .ok .graveyard
  | -1 => .ok .wip
  | 0 => .ok .pending
  | 1 => .ok .ranked
  | 2 => .ok .approved
  | 3 => .ok .qualified
  | 4 => .ok .loved
  | _ => .error (.value "is not a valid BeatmapRankStatus")

/-- `Beatmap.from_resp_no_save` -/
def RawBeatmap.parse (raw : RawBeatmap) : Except ImportError Beatmap := do
  let beatmapStatus ← rankStatus raw.ranked
  return {
    id := raw.id
    checksum := raw.checksum.getD ""
    beatmapStatus
    deletedAt := raw.deletedAt
    difficultyRating := raw.difficultyRating
    totalLength := raw.totalLength
    hitLength := raw.hitLength
    cs := raw.cs
    others := raw.others }

/-- The checks of an entry, and the rows it describes. -/
def RawSet.parse (raw : RawSet) : Except ImportError Beatmapset := do
  if raw.trackId = none ∨ (raw.ranked ≠ some 1 ∧ raw.ranked ≠ some 2) then
    throw (.value "Official search did not honour the Featured Artist / Ranked filter")
  let availability := raw.availability.getD {}
  let beatmapStatus ← rankStatus (raw.ranked.getD 0)
  let native := raw.beatmaps.filter (!·.convert)
  let maps ← native.mapM RawBeatmap.parse
  if h : maps = [] ∨ ¬ (maps.map (·.id)).Nodup then
    throw (.value "Official search returned an empty or duplicate difficulty list")
  else if ¬ (native.all fun item => item.beatmapsetId == raw.id) ∨
      ¬ (maps.all fun item => item.checksum != "") then
    throw (.value "Official search returned invalid difficulty metadata")
  else return {
    id := raw.id
    lastUpdated := raw.lastUpdated
    beatmapStatus
    trackId := raw.trackId
    downloadDisabled := availability.downloadDisabled.getD false
    availabilityInfo := availability.moreInformation
    others := raw.others
    beatmaps := maps
    nodup := not_not.mp (not_or.mp h).2 }

/-! ## The import -/

/-- What becomes of an entry. -/
inductive Outcome where
  | inserted
  | newer
  | revision
  | refreshed
  deriving DecidableEq

/-- Whether the entry tells of a revision: another status, other difficulties, or another file,
status or deletion mark of one of them. -/
def Beatmapset.revised (existing parent : Beatmapset) : Bool :=
  existing.beatmapStatus != parent.beatmapStatus ||
  !(parent.beatmaps.all fun item => existing.beatmaps.any fun saved =>
      saved.id == item.id && saved.deletedAt == none) ||
  !(existing.beatmaps.all fun saved => saved.deletedAt != none ||
      parent.beatmaps.any fun item => item.id == saved.id) ||
  parent.beatmaps.any fun item => !existing.beatmaps.any fun saved =>
    saved.id == item.id && saved.checksum == item.checksum &&
      saved.beatmapStatus == item.beatmapStatus && saved.deletedAt == item.deletedAt

/-- `difficulty_rating`, `total_length`, `hit_length` and `cs` -/
def Beatmap.withMetadata (saved item : Beatmap) : Beatmap :=
  { saved with
    difficultyRating := item.difficultyRating
    totalLength := item.totalLength
    hitLength := item.hitLength
    cs := item.cs }

/-- The difficulty with what the item of its id tells. -/
def Beatmap.refreshFrom (items : List Beatmap) (saved : Beatmap) : Beatmap :=
  match items.find? fun item => item.id == saved.id with
  | some item => saved.withMetadata item
  | none => saved

theorem Beatmap.id_refreshFrom (items : List Beatmap) (saved : Beatmap) :
    (saved.refreshFrom items).id = saved.id := by
  unfold refreshFrom
  split <;> rfl

/-- The fields that the selection of ranked maps uses. -/
def Beatmapset.withMetadata (existing parent : Beatmapset) : Beatmapset :=
  { existing with
    trackId := parent.trackId
    downloadDisabled := parent.downloadDisabled
    availabilityInfo := parent.availabilityInfo
    beatmaps := existing.beatmaps.map (Beatmap.refreshFrom parent.beatmaps)
    nodup := by
      have hids : (·.id) ∘ Beatmap.refreshFrom parent.beatmaps = (·.id) :=
        funext (Beatmap.id_refreshFrom parent.beatmaps)
      rw [List.map_map, hids]
      exact existing.nodup }

/-- The entry on a stored set. -/
def Beatmapset.update (existing parent : Beatmapset) : Outcome × Beatmapset :=
  if parent.lastUpdated < existing.lastUpdated then (.newer, existing)
  else if existing.revised parent then (.revision, existing)
  else (.refreshed, existing.withMetadata parent)

theorem Beatmapset.map_id_withMetadata (existing parent : Beatmapset) :
    (existing.withMetadata parent).beatmaps.map (·.id) = existing.beatmaps.map (·.id) := by
  rw [withMetadata, List.map_map]
  exact List.map_congr_left fun m _ => Beatmap.id_refreshFrom parent.beatmaps m

theorem Beatmapset.id_update (existing parent : Beatmapset) :
    (existing.update parent).2.id = existing.id := by
  unfold update
  split
  · rfl
  · split <;> rfl

theorem Beatmapset.map_id_update (existing parent : Beatmapset) :
    (existing.update parent).2.beatmaps.map (·.id) = existing.beatmaps.map (·.id) := by
  unfold update
  split
  · rfl
  · split
    · rfl
    · exact existing.map_id_withMetadata parent

namespace Database

/-- A row, whose difficulties no other set has. -/
def put (db : Database) (set : Beatmapset)
    (h : ∀ i a, i ≠ set.id → db.sets.row i = some a →
      ∀ m ∈ a.beatmaps, ∀ m' ∈ set.beatmaps, m.id ≠ m'.id) : Database where
  sets := db.sets.put set.id set
  keyed := by
    intro i a ha
    rw [Catalog.row_put] at ha
    split at ha
    case isTrue hi =>
      rw [hi, Option.some.inj ha]
    case isFalse =>
      exact db.keyed i a ha
  distinct := by
    intro i j a b ha hb m hm m' hm' heq
    rw [Catalog.row_put] at ha hb
    by_cases hi : i = set.id <;> by_cases hj : j = set.id
    · exact hi.trans hj.symm
    · rw [if_pos hi, Option.some.injEq] at ha
      rw [if_neg hj] at hb
      subst ha
      exact absurd heq.symm (h j b hj hb m' hm' m hm)
    · rw [if_neg hi] at ha
      rw [if_pos hj, Option.some.injEq] at hb
      subst hb
      exact absurd heq (h i a hi ha m hm m' hm')
    · rw [if_neg hi] at ha
      rw [if_neg hj] at hb
      exact db.distinct i j a b ha hb m hm m' hm' heq

/-- No stored set has a difficulty of the new one. -/
def free (db : Database) (parent : Beatmapset) : Bool :=
  db.sets.ids.all fun i => (db.sets.row i).all fun saved =>
    saved.beatmaps.all fun m => parent.beatmaps.all fun item => m.id != item.id

theorem ne_of_free {db : Database} {parent : Beatmapset} (h : db.free parent = true) (i : SetId)
    (a : Beatmapset) (_ : i ≠ parent.id) (ha : db.sets.row i = some a) :
    ∀ m ∈ a.beatmaps, ∀ m' ∈ parent.beatmaps, m.id ≠ m'.id := by
  intro m hm m' hm'
  rw [free, List.all_eq_true] at h
  have hrow := h i (Catalog.mem_of_row ha)
  rw [ha, Option.all_some, List.all_eq_true] at hrow
  simpa using List.all_eq_true.mp (hrow m hm) m' hm'

/-- The difficulties of an updated set are those of the stored one. -/
theorem ne_of_update {db : Database} {k : SetId} {existing : Beatmapset} (parent : Beatmapset)
    (hrow : db.sets.row k = some existing) (i : SetId) (a : Beatmapset)
    (hi : i ≠ (existing.update parent).2.id) (ha : db.sets.row i = some a) :
    ∀ m ∈ a.beatmaps, ∀ m' ∈ (existing.update parent).2.beatmaps, m.id ≠ m'.id := by
  intro m hm m' hm' heq
  have hmem : m'.id ∈ existing.beatmaps.map (·.id) :=
    existing.map_id_update parent ▸ List.mem_map_of_mem hm'
  obtain ⟨saved, hsaved, hid⟩ := List.mem_map.mp hmem
  have hsame : i = k := db.distinct i k a existing ha hrow m hm saved hsaved (heq.trans hid.symm)
  rw [existing.id_update, db.keyed k existing hrow] at hi
  exact hi hsame

/-- The import of one entry. -/
def importEntry (db : Database) (raw : RawSet) : Except ImportError (Outcome × Database) := do
  let parent ← raw.parse
  match hrow : db.sets.row parent.id with
  | none =>
    if h : db.free parent = true then return (.inserted, db.put parent (ne_of_free h))
    else throw .integrity
  | some existing =>
    return ((existing.update parent).1,
      db.put (existing.update parent).2 (ne_of_update parent hrow))

def importEntries (db : Database) :
    List RawSet → Except ImportError (List (SetId × Outcome) × Database)
  | [] => .ok ([], db)
  | raw :: rest => do
    let (outcome, db) ← importEntry db raw
    let (outcomes, db) ← importEntries db rest
    return ((raw.id, outcome) :: outcomes, db)

end Database

/-- `import_search_page`: what becomes of each entry, and the tables.  The caller commits them; a
raise rolls them back. -/
def importSearchPage (db : Database) (sets : List RawSet) :
    Except ImportError (List (SetId × Outcome) × Database) :=
  db.importEntries (sets.insertionSort fun a b => a.id ≤ b.id)

/-- The list that `import_search_page` returns. -/
def refreshList (outcomes : List (SetId × Outcome)) : List SetId :=
  (outcomes.filter fun (_, outcome) => outcome == .revision).map (·.1)

end Soms.Catalogue
