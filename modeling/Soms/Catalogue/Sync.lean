import Mathlib.Data.Finset.Card
import Mathlib.Logic.Relation
import Soms.Catalogue.Import
import Soms.Library.Run

/-!
# The catalogue sync

`sync_official_catalogue` of `service/ranked_catalogue_service.py`.  A step is one operation on
Redis, the tables or upstream.  Between two of them the run may raise, also where the operation has
been done and only its reply is lost, or the process may crash.  Runs hold a lock, so there is one at
a time.  Times are in seconds.
-/

namespace Soms.Catalogue

abbrev Cursor := String

structure Page where
  beatmapsets : List RawSet
  cursorString : Option Cursor
  total : Option Nat

/-- The page that upstream returns for a cursor. -/
abbrev Upstream := Option Cursor → Page

inductive Status where
  | running | complete | error
  deriving DecidableEq, Repr

/-- The dictionary under `STATE_KEY`.  A field is none where it is missing or null. -/
structure State where
  status : Option Status := none
  processed : Option Nat := none
  total : Option Nat := none
  cursor : Option Cursor := none
  lastCompleted : Option Int := none
  error : Option String := none
  deriving DecidableEq, Repr

/-- An empty cursor is as good as none. -/
def truthy (cursor : Option Cursor) : Option Cursor := cursor.filter (· ≠ "")

/-- The cursor of the next request. -/
def State.position (state : State) : Option Cursor := truthy state.cursor

/-- Where a run is, with the `state` of its process. -/
inductive Phase where
  | idle
  /-- The state is that of a fresh start, and `SEEN_KEY` is to be deleted. -/
  | clearing (state : State)
  | starting (state : State)
  /-- The loop has done `n` pages. -/
  | fetching (n : Nat) (state : State)
  | importing (n : Nat) (state : State) (page : Page)
  | refreshing (n : Nat) (state : State) (page : Page) (refresh : List SetId)
  | counting (n : Nat) (state : State) (page : Page)
  | querying (n : Nat) (state : State)
  | rechecking (n : Nat) (state : State) (missing : List SetId)
  | saving (n : Nat) (state : State)
  | extending (n : Nat) (state : State)
  /-- The handler has the exception. -/
  | failing (state : State) (error : String)

/-- The `state` that the handler of an exception finds. -/
def Phase.state : Phase → Option State
  | .idle | .failing _ _ => none
  | .clearing state | .starting state | .fetching _ state | .importing _ state _
  | .refreshing _ state _ _ | .counting _ state _ | .querying _ state | .rechecking _ state _
  | .saving _ state | .extending _ state => some state

structure Sys where
  db : Database
  /-- `STATE_KEY` -/
  stored : Option State
  /-- `SEEN_KEY` -/
  seen : Finset SetId
  phase : Phase

/-- No run has taken place. -/
def Sys.start (db : Database) : Sys := ⟨db, none, ∅, .idle⟩

inductive Event where
  | skipped (force : Bool) (now : Int)
  | freshStart (force : Bool) (now : Int)
  | resumed (force : Bool) (now : Int)
  /-- Reading `STATE_KEY` fails. -/
  | unread (error : String)
  | cleared
  | started
  | fetched
  | imported (outcomes : List (SetId × Outcome))
  /-- The import raises. -/
  | refused
  /-- The updater returns, and leaves the tables behind. -/
  | updated (id : SetId) (db : Database)
  | recorded
  | counted
  | queried
  | rechecked (id : SetId) (db : Database)
  /-- The updater raises a 404 for the set. -/
  | notFound (id : SetId)
  | finished (now : Int)
  | saved
  | extended
  | failed (error : String)
  | handled
  | crashed
  /-- Another part of the server writes the tables. -/
  | changed (db : Database)

/-! ## The tables -/

/-- The ranked Featured Artist sets. -/
def Database.known (db : Database) : List SetId :=
  db.sets.ids.filter fun i => (db.sets.row i).any fun set =>
    set.trackId.isSome && (set.beatmapStatus == .ranked || set.beatmapStatus == .approved)

/-- A missing set is marked, if it is stored. -/
def Database.disableDownload (db : Database) (id : SetId) : Database :=
  match hrow : db.sets.row id with
  | none => db
  | some set => db.put { set with downloadDisabled := true } fun i a hi ha m hm m' hm' heq =>
      hi ((db.distinct i id a set ha hrow m hm m' hm' heq).trans (db.keyed id set hrow).symm)

/-! ## Steps -/

/-- A completed catalogue is left alone for a day, unless the run is forced. -/
def State.isRecent (state : State) (force : Bool) (now : Int) : Bool :=
  !force && state.status == some .complete &&
    state.lastCompleted.any fun last => decide (now - last < 86400)

/-- Whether a run starts the catalogue from the beginning. -/
def State.isOver (state : State) : Bool :=
  state.status == none || state.status == some .complete

def State.fresh (state : State) : State :=
  { processed := some 0, lastCompleted := state.lastCompleted }

/-- The checks of a fetched page. -/
def Page.check (page : Page) (state : State) : Except String Unit :=
  if (truthy page.cursorString).isSome ∧
      (page.cursorString = state.cursor ∨ page.beatmapsets = []) then .error "ValueError"
  else if page.beatmapsets = [] then
    match state.processed with
    | none => .error "KeyError"
    | some 0 => .error "ValueError"
    | some _ => .ok ()
  else .ok ()

def ImportError.name : ImportError → String
  | .value _ => "ValueError"
  | .integrity => "IntegrityError"

/-- The state with the counts of a page. -/
def State.counted (state : State) (processed : Nat) (page : Page) : State :=
  { state with processed := some processed, total := page.total, cursor := page.cursorString }

/-- One step, none where the event does not happen. -/
def step (upstream : Upstream) (s : Sys) (e : Event) : Option Sys :=
  let state := s.stored.getD {}
  match e, s.phase with
  | .skipped force now, .idle => if state.isRecent force now then some s else none
  | .freshStart force now, .idle =>
    if !state.isRecent force now && state.isOver then some { s with phase := .clearing state.fresh }
    else none
  | .resumed force now, .idle =>
    if !state.isRecent force now && !state.isOver then some { s with phase := .starting state }
    else none
  | .unread error, .idle => some { s with phase := .failing {} error }
  | .cleared, .clearing state => some { s with seen := ∅, phase := .starting state }
  | .started, .starting state =>
    let state := { state with status := some .running, error := none }
    some { s with stored := some state, phase := .fetching 0 state }
  | .fetched, .fetching n state =>
    let page := upstream state.position
    match page.check state with
    | .ok () => some { s with phase := .importing n state page }
    | .error error => some { s with phase := .failing state error }
  | .imported outcomes, .importing n state page =>
    match importSearchPage s.db page.beatmapsets with
    | .ok (outcomes', db) =>
      if outcomes = outcomes' then
        some { s with db, phase := .refreshing n state page (refreshList outcomes) }
      else none
    | .error _ => none
  | .refused, .importing _ state page =>
    match importSearchPage s.db page.beatmapsets with
    | .ok _ => none
    | .error error => some { s with phase := .failing state error.name }
  | .updated id db, .refreshing n state page (next :: rest) =>
    if id = next then some { s with db, phase := .refreshing n state page rest } else none
  | .recorded, .refreshing n state page [] =>
    some { s with
      seen := s.seen ∪ (page.beatmapsets.map (·.id)).toFinset
      phase := .counting n state page }
  | .counted, .counting n state page =>
    let state := state.counted s.seen.card page
    if (truthy page.cursorString).isSome then some { s with phase := .saving n state }
    else if s.seen.card < page.total.getD 0 then
      some { s with phase := .failing state "ValueError" }
    else some { s with phase := .querying n state }
  | .queried, .querying n state =>
    let missing := (s.db.known.filter (· ∉ s.seen)).insertionSort (· ≤ ·)
    some { s with phase := .rechecking n state missing }
  | .rechecked id db, .rechecking n state (next :: rest) =>
    if id = next then some { s with db, phase := .rechecking n state rest } else none
  | .notFound id, .rechecking n state (next :: rest) =>
    if id = next then
      some { s with db := s.db.disableDownload id, phase := .rechecking n state rest }
    else none
  | .finished now, .rechecking n state [] =>
    some { s with
      phase := .saving n { state with status := some .complete, lastCompleted := some now } }
  | .saved, .saving n state => some { s with stored := some state, phase := .extending n state }
  | .extended, .extending n state =>
    if state.status = some .complete then some { s with phase := .idle }
    else if n + 1 < 2000 then some { s with phase := .fetching (n + 1) state }
    else some { s with phase := .failing state "ValueError" }
  | .failed error, phase => phase.state.map fun state => { s with phase := .failing state error }
  | .handled, .failing state error =>
    some { s with
      stored := some { state with status := some .error, error := some error }
      phase := .idle }
  | .crashed, _ => some { s with phase := .idle }
  | .changed db, _ => some { s with db }
  | _, _ => none

def Step (upstream : Upstream) (s : Sys) (e : Event) (t : Sys) : Prop := step upstream s e = some t

end Soms.Catalogue
