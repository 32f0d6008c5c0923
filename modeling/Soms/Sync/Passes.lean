import Soms.Scores.System

/-!
# Synchronisation passes

`service/beatmapset_update_service.py` for one beatmapset.  A pass compares a snapshot
with the manifest and with the tables, refreshes the set, applies the changes one
transaction at a time and then writes the manifest.  `_sync_lock` keeps the passes of a
set apart; an error or a crash between two transactions ends the pass.
-/

namespace Soms.Sync

open Scores Txn

/-- The `Beatmapset` row. -/
structure Parent where
  lastUpdated : Time
  status : BeatmapRankStatus
  deriving DecidableEq, Repr

/-- `SavedBeatmapMeta`, without its difficulty. -/
structure SavedMeta where
  md5 : Checksum
  isDeleted : Bool
  status : BeatmapRankStatus
  deriving DecidableEq, Repr

/-- `BeatmapSync`, the manifest of the set. -/
structure Record where
  beatmaps : Catalog SavedMeta
  status : BeatmapRankStatus

/-- `EnsuredBeatmapset`, a snapshot of the set from upstream. -/
structure Snapshot where
  lastUpdated : Time
  status : BeatmapRankStatus
  beatmaps : Catalog Upstream

/-- `Beatmapset.from_resp_no_save` -/
def Snapshot.parent (snap : Snapshot) : Parent := ⟨snap.lastUpdated, snap.status⟩

/-- The manifest of a snapshot. -/
def Snapshot.manifest (snap : Snapshot) : Record where
  beatmaps := snap.beatmaps.filterMap fun _ u => some ⟨u.checksum, false, u.status⟩
  status := snap.status

/-- What a pass goes by. -/
inductive Pass where
  /-- A snapshot of a set with a manifest, from which the manifest differs or not. -/
  | sync (snap : Snapshot) (changed : Bool)
  /-- The first snapshot of a set that is not stored. -/
  | imported (snap : Snapshot)
  /-- Upstream answered 404. -/
  | missing

def Pass.snapshot : Pass → Option Snapshot
  | .sync snap _ => some snap
  | .imported snap => some snap
  | .missing => none

/-- The transactions of a pass that are still to come. -/
inductive Phase where
  | idle
  /-- The changes are known; the set is refreshed next. -/
  | detected (pass : Pass) (changes : List (BeatmapId × MapChange))
  /-- The set is refreshed, and these changes are left. -/
  | applying (pass : Pass) (todo : List (BeatmapId × MapChange))

def Phase.snapshot : Phase → Option Snapshot
  | .idle => none
  | .detected pass _ => pass.snapshot
  | .applying pass _ => pass.snapshot

structure State where
  db : Scores.State
  parent : Option Parent
  record : Option Record
  phase : Phase

def State.empty : State := ⟨.empty, none, none, .idle⟩

/-! ## Detection -/

/-- The row of a difficulty of the set. -/
def own (setId : SetId) (db : Scores.State) (b : BeatmapId) : Option Beatmap :=
  (db.beatmaps.row b).filter fun bm => bm.setId = setId

/-- The manifest of the rows of the set. -/
def stored (setId : SetId) (db : Scores.State) (deleted : Beatmap → Bool)
    (status : BeatmapRankStatus) : Record where
  beatmaps := db.beatmaps.filterMap fun _ bm =>
    if bm.setId = setId then some ⟨bm.checksum, deleted bm, bm.status⟩ else none
  status := status

/-- `ProcessingBeatmapset.changed_beatmaps`, for one difficulty. -/
def Record.change (r : Record) (snap : Snapshot) (b : BeatmapId) : MapChange :=
  match snap.beatmaps.row b, r.beatmaps.row b with
  | some u, some saved =>
    if saved.isDeleted then .added
    else if saved.md5 ≠ u.checksum then .updated
    else if saved.status ≠ u.status then .statusChanged
    else .unchanged
  | some _, none => .added
  | none, some saved => if saved.isDeleted then .unchanged else .deleted
  | none, none => .unchanged

/-- `_database_consistency_changes`, for one difficulty. -/
def databaseChange (setId : SetId) (db : Scores.State) (snap : Snapshot) (b : BeatmapId) :
    MapChange :=
  classify (own setId db b) (snap.beatmaps.row b)

/-- What the tables call for goes before what the manifest calls for. -/
def change (setId : SetId) (db : Scores.State) (r : Record) (snap : Snapshot) (b : BeatmapId) :
    MapChange :=
  if databaseChange setId db snap b = .unchanged then r.change snap b
  else databaseChange setId db snap b

/-- `changed_beatmaps` of `_sync_locked`, in the order of the difficulties. -/
def detect (setId : SetId) (db : Scores.State) (r : Record) (snap : Snapshot) :
    List (BeatmapId × MapChange) :=
  let ids := (snap.beatmaps.ids ++ r.beatmaps.ids ++ db.beatmaps.ids).dedup
  ((ids.insertionSort (· ≤ ·)).map fun b => (b, change setId db r snap b)).filter
    fun x => x.2 ≠ .unchanged

/-- A pass over the snapshot begins with the manifest. -/
def begin (setId : SetId) (db : Scores.State) (r : Record) (snap : Snapshot) : Phase :=
  let changes := detect setId db r snap
  .detected (.sync snap (r.status ≠ snap.status || !changes.isEmpty)) changes

/-! ## Transactions -/

/-- `_metadata_only_beatmaps` -/
def metadataOnly (snap : Snapshot) (changes : List (BeatmapId × MapChange)) : List BeatmapId :=
  snap.beatmaps.ids.filter fun b => b ∉ changes.map Prod.fst

/-- `session.merge` of a difficulty of the snapshot. -/
def merge (snap : Snapshot) (db : Scores.State) (b : BeatmapId) : Scores.State :=
  match snap.beatmaps.row b with
  | some u => db.putBeatmap b u.row
  | none => db

/-- The difficulty is from another set. -/
def misplaced (setId : SetId) (snap : Snapshot) (b : BeatmapId) : Bool :=
  (snap.beatmaps.row b).any (·.setId ≠ setId)

/-- `_process_changed_beatmapset`, when it does not refuse. -/
def refreshed (setId : SetId) (snap : Snapshot) (changes : List (BeatmapId × MapChange))
    (db : Scores.State) : Scores.State :=
  (metadataOnly snap changes).foldl (merge snap)
    { db with sets := Function.update db.sets setId true }

variable (srv : Deployment) (setId : SetId)

/-- One turn of `_process_changed_beatmaps`. -/
def applyChange (snap : Option Snapshot) (b : BeatmapId) (change : MapChange) : Act Unit :=
  let difficulty : Option Upstream := snap.bind (·.beatmaps.row b)
  match change with
  | .added => do
    let u ← require (fun _ => difficulty) .valueError
    mapAdded srv.toServer setId b u
  | .deleted => mapDeleted srv.toServer setId b
  | .updated => do
    let u ← require (fun _ => difficulty) .valueError
    mapChanged srv.toServer true setId b u
  | .statusChanged => do
    let u ← require (fun _ => difficulty) .valueError
    mapChanged srv.toServer false setId b u
  | .unchanged => pure ()

inductive Event where
  /-- The rest of the server, other sets included. -/
  | live (e : Scores.Event)
  /-- `get_or_fetch` of a difficulty of the set. -/
  | fetch (b : BeatmapId) (u : Upstream) (parent : Parent)
  /-- `add`, for a set that has no manifest. -/
  | add
  /-- A pass reads the manifest and the tables. -/
  | start (snap : Snapshot)
  /-- A pass learns that upstream has no such set. -/
  | notFound
  | refresh
  | apply
  /-- The manifest is written; `keep` when the set stays in the list of syncs. -/
  | finish (keep : Bool)
  | crash

/-- A transaction of the rest of the server is not a synchronisation of the set. -/
def foreign : Scores.Event → Bool
  | .sync setId' _ _ => setId' != setId
  | .fetch _ u => u.setId != setId
  | _ => true

/-- The manifest after a completed pass. -/
def Pass.record (keep : Bool) (old : Option Record) : Pass → Option Record
  | .sync snap changed => if !keep then none else if changed then some snap.manifest else old
  | .imported snap => some (old.getD snap.manifest)
  | .missing =>
    if !keep then none
    else old.map fun r =>
      { beatmaps := r.beatmaps.filterMap fun _ m => some { m with isDeleted := true }
        status := .graveyard }

/-- The set after a completed pass. -/
def Pass.parent (old : Option Parent) : Pass → Option Parent
  | .missing => old.map fun p => { p with status := .graveyard }
  | _ => old

/-- `none` where the event cannot happen. -/
def serve (s : State) : Event → Option State
  | .live e =>
    match foreign setId e, Scores.serve srv e s.db with
    | true, (.ok _, db) => some { s with db }
    | _, _ => none
  | .fetch b u parent =>
    match s.phase, u.setId == setId, fetchBeatmap b u s.db with
    | .idle, true, (.ok _, db) => some { s with db, parent := some (s.parent.getD parent) }
    | _, _, _ => none
  | .add =>
    match s.record, s.parent with
    | none, some p => some { s with record := some (stored setId s.db (fun _ => false) p.status) }
    | _, _ => none
  | .start snap =>
    match s.phase, s.record, s.parent with
    | .idle, some r, _ => some { s with phase := begin setId s.db r snap }
    | .idle, none, some p =>
      let r := stored setId s.db (·.deleted) p.status
      some { s with record := some r, phase := begin setId s.db r snap }
    | .idle, none, none =>
      some { s with
        phase := .detected (.imported snap) (snap.beatmaps.ids.map fun b => (b, .added)) }
    | _, _, _ => none
  | .notFound =>
    match s.phase, s.record with
    | .idle, some _ =>
      some { s with
        phase := .applying .missing ((s.db.activeMaps setId).map fun b => (b, .deleted)) }
    | _, _ => none
  | .refresh =>
    match s.phase, s.phase.snapshot with
    | .detected pass changes, some snap =>
      -- an older snapshot, a difficulty of another set and a difficulty that changed meanwhile
      if s.parent.any (snap.lastUpdated < ·.lastUpdated) ||
          (metadataOnly snap changes).any (misplaced setId snap) ||
          (metadataOnly snap changes).any (databaseChange setId s.db snap · ≠ .unchanged) then
        some { s with phase := .idle }
      else
        some { s with
          db := refreshed setId snap changes s.db
          parent := some snap.parent
          phase := .applying pass changes }
    | _, _ => none
  | .apply =>
    match s.phase with
    | .applying pass ((b, change) :: todo) =>
      match applyChange srv setId pass.snapshot b change s.db with
      | (.ok _, db) => some { s with db, phase := .applying pass todo }
      | (.error _, _) => some { s with phase := .idle }
    | _ => none
  | .finish keep =>
    match s.phase with
    | .applying pass [] =>
      some { s with
        parent := pass.parent s.parent
        record := pass.record keep s.record
        phase := .idle }
    | _ => none
  | .crash => some { s with phase := .idle }

def Step (s : State) (e : Event) (t : State) : Prop := serve srv setId s e = some t

/-- The runs from the empty tables, with their history. -/
abbrev Runs (h : List (Event × State)) (s : State) : Prop :=
  Trace (Step srv setId) (fun _ _ => True) State.empty h s

end Soms.Sync
